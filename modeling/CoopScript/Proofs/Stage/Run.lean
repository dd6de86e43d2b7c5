import CoopScript.Interpreter
import CoopScript.Proofs.Stage.Sound
import Mathlib.Logic.Relation

set_option autoImplicit false
namespace CoopScript

namespace Stage

-- Everything that is in progress in `base` is still so.
structure Within (base stage : Stage) : Prop where
  calls : base.calls.map Call.owner <:+ stage.calls.map Call.owner
  held : stage.held = base.held
  registered : ∀ entry ∈ base.machine.registered, entry ∈ stage.machine.registered

def firm (stage : Stage) : List FrameId :=
  Arena.root :: (stage.machine.registered.map Prod.snd ++ stage.calls.map Call.frame ++ stage.held)

-- A run from `start` to `finish` by steps of a script, on top of all that `base` has in progress.
def Leads (base start finish : Stage) : Prop :=
  Relation.ReflTransGen (fun before after => Step before after ∧ base.Within after) start finish

-- The way out of a failure, down to what `base` has in progress.
def Leaves (base start finish : Stage) : Prop :=
  Relation.ReflTransGen (fun before after => Unwind before after ∧ base.Within after) start finish

theorem within_refl (stage : Stage) : stage.Within stage :=
  ⟨List.suffix_refl _, rfl, fun _ member => member⟩

theorem within_trans (first second third : Stage) (left : first.Within second)
    (right : second.Within third) : first.Within third :=
  ⟨left.calls.trans right.calls, right.held.trans left.held,
    fun entry member => right.registered entry (left.registered entry member)⟩

theorem within_put (base stage : Stage) (machine : Machine)
    (same : machine.registered.Perm stage.machine.registered) (within : base.Within stage) :
    base.Within (stage.put machine) :=
  ⟨within.calls, within.held, fun entry member => same.symm.subset (within.registered entry member)⟩

theorem within_owners (base stage : Stage) (within : base.Within stage) (id : FrameId)
    (member : id ∈ base.firm) : id ∈ stage.owners := by
  unfold firm at member
  unfold owners
  simp only [List.mem_cons, List.mem_append, List.mem_map] at member ⊢
  rcases member with root | (⟨entry, registered, same⟩ | ⟨call, inProgress, same⟩) | held
  · exact .inl root
  · exact .inr (.inl (.inl (.inl ⟨entry, within.registered entry registered, same⟩)))
  · obtain ⟨later, laterInProgress, sameOwner⟩ :=
      List.mem_map.mp (within.calls.subset (List.mem_map_of_mem inProgress))
    exact .inr (.inl (.inr ⟨later, laterInProgress, (congrArg Prod.fst sameOwner).trans same⟩))
  · exact .inr (.inr (within.held ▸ held))

theorem leads_within (base outer start finish : Stage) (within : outer.Within base)
    (leads : base.Leads start finish) : outer.Leads start finish :=
  Relation.ReflTransGen.mono
    (fun _ after stride => ⟨stride.1, within_trans outer base after within stride.2⟩) start finish leads

theorem leaves_within (base outer start finish : Stage) (within : outer.Within base)
    (leaves : base.Leaves start finish) : outer.Leaves start finish :=
  Relation.ReflTransGen.mono
    (fun _ after stride => ⟨stride.1, within_trans outer base after within stride.2⟩) start finish leaves

theorem leads_here (base start finish : Stage) (within : base.Within start)
    (leads : base.Leads start finish) : base.Within finish := by
  induction leads with
  | refl => exact within
  | tail _ stride => exact stride.2

theorem leads_sound (base start finish : Stage) (sound : start.Sound)
    (leads : base.Leads start finish) : finish.Sound := by
  induction leads with
  | refl => exact sound
  | tail _ stride ih => exact step_sound _ _ ih stride.1

theorem leaves_sound (base start finish : Stage) (sound : start.Sound)
    (leaves : base.Leaves start finish) : finish.Sound := by
  induction leaves with
  | refl => exact sound
  | tail _ stride ih => exact unwind_sound _ _ ih stride.1

end Stage

section Lasting

theorem released_lasting (call : Call) (calls : List Call) (held : List FrameId)
    (machine after : Machine) (sound : (Stage.mk (call :: calls) held machine).Sound)
    (released : Exec.releaseFrame call.frame machine = .done () after) :
    machine.frames.Lasting after.frames := by
  have ledger := Stage.call_ledger call calls held machine sound
  obtain ⟨frames, rfl, _, shrinks⟩ := Exec.released_kept call.frame _ machine after ledger released
  exact Arena.lasting_shrinks machine.frames frames shrinks

theorem closing_lasting (stage after : Stage) (sound : stage.Sound) (closed : Closing stage after) :
    stage.machine.frames.Lasting after.machine.frames := by
  cases closed with
  | endRun => exact Arena.lasting_refl _
  | closeCall frame calls held machine after released =>
    exact released_lasting ⟨frame, none, false⟩ calls held machine after sound released
  | closeBlock _ id last after finished =>
    obtain ⟨calls, held, machine⟩ := stage
    rcases Exec.finish_runner_done id last machine after finished with ⟨_, rfl⟩ | found
    · exact Arena.lasting_refl _
    · obtain ⟨runner, frames, known, released, rfl⟩ := found
      have ledger := Stage.runner_ledger calls held machine id runner known sound
      obtain ⟨framesLeft, done, _, shrinks⟩ := Arena.kept_release machine.frames _ runner.frame ledger
      rw [released] at done
      cases done
      exact Arena.lasting_shrinks machine.frames frames shrinks

theorem step_lasting (stage after : Stage) (sound : stage.Sound) (step : Step stage after) :
    stage.machine.frames.Lasting after.machine.frames := by
  cases step with
  | quiet | adjust | beginRun | startBody => exact Arena.lasting_refl _
  | alter _ id old frame found sameParent sameKind _ _ =>
    exact Arena.lasting_set stage.machine.frames id old frame found sameParent sameKind
  | openCall _ caller id arguments after _ opened =>
    obtain ⟨frames, pushed, rfl⟩ := Exec.push_frame_done caller id true arguments stage.machine after opened
    exact Arena.lasting_push stage.machine.frames frames _ caller id true arguments sound.ledger pushed
  | openBlock _ lines frame id after opened =>
    obtain ⟨frames, functionFrame, retained, _, _, rfl⟩ :=
      Exec.create_runner_done lines frame id stage.machine after opened
    exact Arena.lasting_retain stage.machine.frames frames frame retained
  | spawn _ name lines arguments caller promise after _ spawned =>
    obtain ⟨frame, frames, pushed, _, rfl⟩ :=
      Exec.spawn_async_done name lines arguments caller promise stage.machine after spawned
    exact Arena.lasting_push stage.machine.frames frames _ caller frame true arguments sound.ledger pushed
  | settleBody frame task calls held value machine middle after _ released settled =>
    obtain ⟨tasks, _, rfl⟩ := Exec.settle_task_done task value middle after settled
    exact released_lasting ⟨frame, some task, false⟩ calls held machine middle sound released
  | settle _ task value rest after _ settled =>
    obtain ⟨tasks, _, rfl⟩ := Exec.settle_task_done task _ _ after settled
    exact Arena.lasting_refl _
  | consume _ task value after consumed =>
    obtain ⟨tasks, _, rfl⟩ := Exec.consume_task_done task (some value) stage.machine after consumed
    exact Arena.lasting_refl _
  | submit _ outcome milliseconds promise after spawned =>
    obtain ⟨pool, due, events, eventCount, event, _, rfl, _⟩ :=
      Exec.spawn_blocking_done (some outcome) milliseconds promise stage.machine after spawned
    exact Arena.lasting_refl _
  | poll _ engine id status after only served =>
    obtain ⟨known, polled, done, polledHere, _⟩ := Exec.service_poll_done engine id stage.machine only
    rw [served] at done
    cases done
    cases polledHere <;> exact Arena.lasting_refl _
  | closing _ _ closed => exact closing_lasting stage after sound closed

theorem unwind_lasting (stage after : Stage) (sound : stage.Sound) (unwind : Unwind stage after) :
    stage.machine.frames.Lasting after.machine.frames := by
  cases unwind with
  | closing _ _ closed => exact closing_lasting stage after sound closed
  | dropBody frame task calls held machine after released =>
    exact released_lasting ⟨frame, some task, false⟩ calls held machine after sound released
  | strand _ task after created =>
    cases created
    exact Arena.lasting_refl _
  | discard => exact Arena.lasting_refl _

end Lasting

namespace Stage

-- The frames that are held in `base` are the same frames in two arenas, up to the outermost.
structure Steady (base : Stage) (before after : Arena) : Prop where
  around : ∀ id ∈ base.firm, ∀ outer, before.Encloses outer id ↔ after.Encloses outer id
  same : ∀ id ∈ base.firm, ∀ outer, before.Encloses outer id → ∀ frame later,
    before.frame? outer = some frame → after.frame? outer = some later →
      later.parent = frame.parent ∧ later.isFunction = frame.isFunction

theorem steady_refl (base : Stage) (arena : Arena) : base.Steady arena arena :=
  ⟨fun _ _ _ => Iff.rfl, fun _ _ outer _ => Arena.lasting_refl arena outer⟩

theorem steady_symm (base : Stage) (before after : Arena) (steady : base.Steady before after) :
    base.Steady after before := by
  refine ⟨fun id member outer => (steady.around id member outer).symm, ?_⟩
  intro id member outer encloses frame later found again
  have before := (steady.around id member outer).mpr encloses
  obtain ⟨parent, kind⟩ := steady.same id member outer before later frame again found
  exact ⟨parent.symm, kind.symm⟩

theorem steady_stride (base before after : Stage) (sound : before.Sound) (afterSound : after.Sound)
    (within : base.Within before) (afterWithin : base.Within after)
    (lasting : before.machine.frames.Lasting after.machine.frames) :
    base.Steady before.machine.frames after.machine.frames := by
  refine ⟨fun id member outer => ⟨fun encloses => ?_, fun encloses => ?_⟩, ?_⟩
  · have live := afterSound.ledger.live id (within_owners base after afterWithin id member)
    exact Arena.encloses_lasting _ _ _ outer id lasting afterSound.ledger live encloses
  · have live := sound.ledger.live id (within_owners base before within id member)
    exact Arena.encloses_lasting _ _ _ outer id (Arena.lasting_symm _ _ lasting) sound.ledger live encloses
  · exact fun _ _ outer _ => lasting outer

theorem steady_trans (base : Stage) (before middle after : Arena) (left : base.Steady before middle)
    (right : base.Steady middle after) : base.Steady before after := by
  refine ⟨fun id member outer => (left.around id member outer).trans (right.around id member outer), ?_⟩
  intro id member outer encloses frame later found again
  have between := (left.around id member outer).mp encloses
  obtain ⟨content, contentFound⟩ :=
    (Arena.live_found middle outer).mp (Arena.encloses_live middle outer id between).1
  obtain ⟨parent, kind⟩ := left.same id member outer encloses frame content found contentFound
  obtain ⟨laterParent, laterKind⟩ := right.same id member outer between content later contentFound again
  exact ⟨laterParent.trans parent, laterKind.trans kind⟩

theorem leads_steady (base start finish : Stage) (sound : start.Sound) (within : base.Within start)
    (leads : base.Leads start finish) :
    base.Within finish ∧ base.Steady start.machine.frames finish.machine.frames := by
  induction leads with
  | refl => exact ⟨within, steady_refl base start.machine.frames⟩
  | tail before stride ih =>
    have middleSound := leads_sound base start _ sound before
    have lasting := step_lasting _ _ middleSound stride.1
    have finishSound := step_sound _ _ middleSound stride.1
    exact ⟨stride.2, steady_trans base _ _ _ ih.2
      (steady_stride base _ _ middleSound finishSound ih.1 stride.2 lasting)⟩

theorem leaves_steady (base start finish : Stage) (sound : start.Sound) (within : base.Within start)
    (leaves : base.Leaves start finish) :
    base.Within finish ∧ base.Steady start.machine.frames finish.machine.frames := by
  induction leaves with
  | refl => exact ⟨within, steady_refl base start.machine.frames⟩
  | tail before stride ih =>
    have middleSound := leaves_sound base start _ sound before
    have lasting := unwind_lasting _ _ middleSound stride.1
    have finishSound := unwind_sound _ _ middleSound stride.1
    exact ⟨stride.2, steady_trans base _ _ _ ih.2
      (steady_stride base _ _ middleSound finishSound ih.1 stride.2 lasting)⟩

end Stage

def Stage.Stroke (stage after : Stage) : Prop := after = stage ∨ Step stage after ∨ Unwind stage after

namespace Exec

inductive Takes : {α : Type} → Exec α → Stage → Stage → Prop where
  | stroke {α : Type} (step : Exec α) (stage after : Stage) (left : (step stage.machine).Leaves after.machine)
      (stroke : stage.Stroke after) : Takes step stage after
  | done {α β : Type} (step : Exec α) (next : α → Exec β) (stage between after : Stage) (value : α)
      (ran : step stage.machine = .done value between.machine) (first : Takes step stage between)
      (later : Takes (next value) between after) : Takes (step >>= next) stage after
  | failed {α β : Type} (step : Exec α) (next : α → Exec β) (stage after : Stage) (failure : Failure)
      (ran : step stage.machine = .failed failure after.machine) (first : Takes step stage after) :
      Takes (step >>= next) stage after
  | attempt {α : Type} (step : Exec α) (stage after : Stage) (first : Takes step stage after) :
      Takes step.attempt stage after
  | mapFailure {α : Type} (change : Failure → Failure) (step : Exec α) (stage after : Stage)
      (first : Takes step stage after) : Takes (step.mapFailure change) stage after

-- The run of a step comes to the run of another one, which need not come to an end.
inductive Comes : {α β : Type} → Exec α → Stage → Exec β → Stage → Prop where
  | here {α : Type} (step : Exec α) (stage : Stage) : Comes step stage step stage
  | first {α β γ : Type} (step : Exec α) (next : α → Exec β) (stage : Stage) (inner : Exec γ) (place : Stage)
      (comes : Comes step stage inner place) : Comes (step >>= next) stage inner place
  | next {α β γ : Type} (step : Exec α) (next : α → Exec β) (stage between : Stage) (value : α)
      (ran : step stage.machine = .done value between.machine) (takes : step.Takes stage between) (inner : Exec γ)
      (place : Stage) (comes : Comes (next value) between inner place) : Comes (step >>= next) stage inner place
  | attempt {α β : Type} (step : Exec α) (stage : Stage) (inner : Exec β) (place : Stage)
      (comes : Comes step stage inner place) : Comes step.attempt stage inner place
  | mapFailure {α β : Type} (change : Failure → Failure) (step : Exec α) (stage : Stage) (inner : Exec β)
      (place : Stage) (comes : Comes step stage inner place) : Comes (step.mapFailure change) stage inner place

variable {α β γ : Type}

theorem takes_leaves (step : Exec α) (stage after : Stage) (takes : step.Takes stage after) :
    (step stage.machine).Leaves after.machine := by
  induction takes with
  | stroke _ _ _ left => exact left
  | done step next stage between after value ran _ _ _ left =>
    rw [bind_done step next _ _ value ran]
    exact left
  | failed step next stage after failure ran =>
    exact .inr ⟨failure, bind_failed step next _ _ failure ran⟩
  | attempt step stage after _ left =>
    rcases left with ⟨value, ran⟩ | ⟨failure, ran⟩
    · exact .inl ⟨.ok value, by simp only [attempt, ran]⟩
    · exact .inl ⟨.error failure, by simp only [attempt, ran]⟩
  | mapFailure change step stage after _ left =>
    rcases left with ⟨value, ran⟩ | ⟨failure, ran⟩
    · exact .inl ⟨value, by simp only [mapFailure, ran]⟩
    · exact .inr ⟨change failure, by simp only [mapFailure, ran]⟩

theorem takes_sound (step : Exec α) (stage after : Stage) (sound : stage.Sound) (takes : step.Takes stage after) :
    after.Sound := by
  induction takes with
  | stroke step stage after _ stroke =>
    rcases stroke with rfl | forward | back
    · exact sound
    · exact step_sound stage after sound forward
    · exact unwind_sound stage after sound back
  | done _ _ _ _ _ _ _ _ _ first later => exact later (first sound)
  | failed _ _ _ _ _ _ _ ih | attempt _ _ _ _ ih | mapFailure _ _ _ _ _ ih => exact ih sound

theorem comes_sound (step : Exec α) (stage : Stage) (inner : Exec β) (place : Stage) (sound : stage.Sound)
    (comes : step.Comes stage inner place) : place.Sound := by
  induction comes with
  | here => exact sound
  | next step _ stage between _ _ takes _ _ _ ih => exact ih (takes_sound step stage between sound takes)
  | first _ _ _ _ _ _ ih | attempt _ _ _ _ _ ih | mapFailure _ _ _ _ _ _ ih => exact ih sound

theorem comes_further (step : Exec α) (stage : Stage) (middle : Exec β) (between : Stage) (inner : Exec γ)
    (place : Stage) (comes : step.Comes stage middle between) (further : middle.Comes between inner place) :
    step.Comes stage inner place := by
  induction comes with
  | here => exact further
  | first _ _ _ _ _ _ ih => exact .first _ _ _ _ _ (ih further)
  | next _ _ _ _ _ ran takes _ _ _ ih => exact .next _ _ _ _ _ ran takes _ _ (ih further)
  | attempt _ _ _ _ _ ih => exact .attempt _ _ _ _ (ih further)
  | mapFailure _ _ _ _ _ _ ih => exact .mapFailure _ _ _ _ _ (ih further)

end Exec

end CoopScript
