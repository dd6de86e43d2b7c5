import CoopScript.Proofs.Stage.Quiescence
import CoopScript.Proofs.Stage.Reachable

set_option autoImplicit false
namespace CoopScript

def Machine.setting (machine : Machine) : Config × ClassTable := (machine.config, machine.classes)

theorem Exec.finish_setting (id : RunnerId) (last : Option Value) (machine after : Machine)
    (finished : finishRunner id machine = .done last after) : after.setting = machine.setting := by
  rcases finish_runner_done id last machine after finished with ⟨_, rfl⟩ | ⟨_, _, _, _, rfl⟩ <;> rfl

namespace Stage

theorem closing_setting (before after : Stage) (closed : Closing before after) :
    after.machine.setting = before.machine.setting := by
  cases closed with
  | endRun => rfl
  | closeCall frame calls held machine after released =>
    obtain ⟨_, _, rfl⟩ := Exec.release_frame_done frame machine after released
    rfl
  | closeBlock _ id last after finished => exact Exec.finish_setting id last before.machine after finished

theorem step_setting (before after : Stage) (step : Step before after) :
    after.machine.setting = before.machine.setting := by
  cases step with
  | quiet | adjust | alter | beginRun | startBody => rfl
  | openCall _ caller id arguments after _ opened =>
    obtain ⟨_, _, rfl⟩ := Exec.push_frame_done caller id true arguments before.machine after opened
    rfl
  | openBlock _ lines frame id after opened =>
    obtain ⟨_, _, _, _, _, rfl⟩ := Exec.create_runner_done lines frame id before.machine after opened
    rfl
  | spawn _ name lines arguments caller promise after _ spawned =>
    obtain ⟨_, _, _, _, rfl⟩ := Exec.spawn_async_done name lines arguments caller promise before.machine after spawned
    rfl
  | settleBody frame task calls held value machine middle after _ released settled =>
    obtain ⟨_, _, rfl⟩ := Exec.release_frame_done frame machine middle released
    obtain ⟨_, _, rfl⟩ := Exec.settle_task_done task value _ after settled
    rfl
  | settle _ task value rest after _ settled =>
    obtain ⟨_, _, rfl⟩ := Exec.settle_task_done task _ _ after settled
    rfl
  | consume _ task value after consumed =>
    obtain ⟨_, _, rfl⟩ := Exec.consume_task_done task (some value) before.machine after consumed
    rfl
  | submit _ outcome milliseconds promise after spawned =>
    obtain ⟨_, _, _, _, _, _, rfl, _⟩ :=
      Exec.spawn_blocking_done (some outcome) milliseconds promise before.machine after spawned
    rfl
  | poll _ engine id status after only served =>
    obtain ⟨known, polled, ran, polledHere, _⟩ := Exec.service_poll_done engine id before.machine only
    rw [served] at ran
    cases ran
    cases polledHere <;> rfl
  | closing _ _ closed => exact closing_setting before after closed

theorem unwind_setting (before after : Stage) (unwind : Unwind before after) :
    after.machine.setting = before.machine.setting := by
  cases unwind with
  | closing _ _ closed => exact closing_setting before after closed
  | dropBody frame task calls held machine after released =>
    obtain ⟨_, _, rfl⟩ := Exec.release_frame_done frame machine after released
    rfl
  | strand _ task after created =>
    cases created
    rfl
  | discard => rfl

theorem leads_setting (base start finish : Stage) (leads : base.Leads start finish) :
    finish.machine.setting = start.machine.setting := by
  induction leads with
  | refl => rfl
  | tail _ stride same => exact (step_setting _ _ stride.1).trans same

theorem leaves_setting (base start finish : Stage) (leaves : base.Leaves start finish) :
    finish.machine.setting = start.machine.setting := by
  induction leaves with
  | refl => rfl
  | tail _ stride same => exact (unwind_setting _ _ stride.1).trans same

theorem breaks_setting {α : Type} (stage : Stage) (step : Exec α) (failure : Failure) (after : Machine)
    (breaks : stage.Breaks step failure after) : after.setting = stage.machine.setting := by
  obtain ⟨middle, leads, _, leaves⟩ := breaks.raised
  exact (leaves_setting stage middle (stage.put after) leaves).trans (leads_setting stage stage middle leads)

theorem follows_setting {α : Type} (stage : Stage) (good : α → Prop) (step : Exec α) (after : Machine)
    (follows : stage.Follows good step) (left : (step stage.machine).Leaves after) :
    after.setting = stage.machine.setting := by
  unfold Follows at follows
  rcases left with ⟨_, ran⟩ | ⟨_, ran⟩ <;> rw [ran] at follows
  · exact leads_setting stage stage (stage.put after) follows.1.leads
  · exact stage.breaks_setting step _ after follows

theorem program_setting (stage : Stage) (lines : List Node) (engine : Engine) (after : Machine) (lawful : engine.Lawful)
    (sound : stage.Sound) (outside : stage.calls = []) (left : (engine.evalProgram lines stage.machine).Leaves after) :
    after.setting = stage.machine.setting := by
  rcases stage.program_cases lines engine lawful sound outside with exhausted | ⟨runner, loaded, leads, _, ended⟩
  · rw [exhausted] at left
    rcases left with ⟨_, same⟩ | ⟨_, same⟩ <;> cases same
  have loadedSame : loaded.setting = stage.machine.setting := leads_setting stage stage _ leads
  have loadedSound : (stage.put loaded).Sound := leads_sound stage stage _ sound leads
  rcases ended with ⟨_, last, finished, _, _, reaches, finish, done⟩ | ⟨failure, broken, _, _, breaks, dropped, failed⟩
  · rw [done] at left
    rcases left with ⟨_, same⟩ | ⟨_, same⟩ <;> cases same
    have finishedSame : finished.setting = loaded.setting := leads_setting _ (stage.put loaded) _ reaches.leads
    exact ((Exec.finish_setting runner last finished after finish).trans finishedSame).trans loadedSame
  · rw [failed] at left
    rcases left with ⟨_, same⟩ | ⟨_, same⟩ <;> cases same
    have numbered := (breaks_sound (stage.put loaded) _ failure broken loadedSound breaks).numbered
    obtain ⟨_, _, rfl⟩ := Exec.reset_done broken after numbered.distinct dropped
    exact ((stage.put loaded).breaks_setting _ failure broken breaks).trans loadedSame

end Stage

theorem reachable_setting (config : Config) (stage : Stage) (reached : Reachable config stage) :
    stage.machine.setting = (config, .intrinsic) := by
  induction reached with
  | start => rfl
  | step stage after _ step same => exact (Stage.step_setting stage after step).trans same
  | unwind stage after _ unwind same => exact (Stage.unwind_setting stage after unwind).trans same
  | perform stage operation fuel after reached plain ran same =>
    have follows := operation.lawful_perform _ (RuleSet.lawful_engine fuel) plain stage (reachable_sound config stage reached)
    exact (stage.follows_setting _ _ after follows ran).trans same
  | program stage lines fuel after reached outside ran same =>
    have sound := reachable_sound config stage reached
    exact (stage.program_setting lines _ after (RuleSet.lawful_engine fuel) sound outside ran).trans same
  | load stage lines frame id after reached loaded same =>
    have sound := reachable_sound config stage reached
    exact (Stage.leads_setting stage stage _ (stage.load_leads lines frame id after sound loaded).1).trans same
  | finish stage id last after _ finished same => exact (Exec.finish_setting id last stage.machine after finished).trans same
  | reset stage after reached _ dropped same =>
    obtain ⟨_, _, rfl⟩ :=
      Exec.reset_done stage.machine after (reachable_sound config stage reached).numbered.distinct dropped
    exact same
  | push stage parent id isFunction bindings after _ _ pushed same =>
    obtain ⟨_, _, rfl⟩ := Exec.push_frame_done parent id isFunction bindings stage.machine after pushed
    exact same
  | retain stage id after _ retained same =>
    unfold Exec.retainFrame Exec.updateFrames at retained
    split at retained <;> cases retained
    exact same
  | release stage id after _ _ released same =>
    obtain ⟨_, _, rfl⟩ := Exec.release_frame_done id stage.machine after released
    exact same

section Rooted

-- There is nothing around the outermost frame, and no function that it belongs to.
def Arena.Rooted (arena : Arena) : Prop :=
  ∀ frame, arena.frame? root = some frame → frame.parent = none ∧ frame.isFunction = false

namespace Arena
variable (before after : Arena) (live : before.isLive root = true) (rooted : before.Rooted)
include live rooted

theorem rooted_lasting (lasting : before.Lasting after) : after.Rooted := by
  intro frame found
  obtain ⟨old, oldFound⟩ := (live_found before root).mp live
  obtain ⟨parent, kind⟩ := lasting root old frame oldFound found
  obtain ⟨outer, none⟩ := rooted old oldFound
  exact ⟨parent.trans outer, kind.trans none⟩

theorem rooted_steady (base : Stage) (steady : base.Steady before after) : after.Rooted := by
  intro frame found
  obtain ⟨old, oldFound⟩ := (live_found before root).mp live
  obtain ⟨parent, kind⟩ := steady.same root List.mem_cons_self root (.self live) old frame oldFound found
  obtain ⟨outer, none⟩ := rooted old oldFound
  exact ⟨parent.trans outer, kind.trans none⟩

theorem rooted_function_frame : before.functionFrame root = .ok none := by
  obtain ⟨frame, found⟩ := (live_found before root).mp live
  obtain ⟨outer, none⟩ := rooted frame found
  simp [functionFrame, search, reach, searchChain, found, outer, none]

end Arena

theorem Machine.named_rooted (names : List (String × Value)) (frames : Arena) (live : frames.isLive Arena.root = true)
    (rooted : frames.Rooted) : (named names frames).Rooted := by
  induction names generalizing frames with
  | nil => exact rooted
  | cons entry rest ih =>
    obtain ⟨frame, found⟩ := (Arena.live_found frames Arena.root).mp live
    unfold named
    rw [List.foldl_cons]
    simp only [Arena.setVariable, Arena.update, found]
    have set := Arena.frame_set frames Arena.root Arena.root frame
      { frame with bindings := frame.bindings.insert entry.1 entry.2 } found
    rw [if_pos rfl] at set
    exact ih _ ((Arena.live_found _ _).mpr ⟨_, set⟩)
      (frames.rooted_lasting _ live rooted (frames.lasting_set Arena.root frame _ found rfl rfl))

theorem Machine.start_rooted (config : Config) : (Machine.start config).frames.Rooted := by
  have first : Arena.initial.frame? Arena.root = some (.fresh none false .empty) := rfl
  rw [show (Machine.start config).frames = _ from (initial config).prelude_frames]
  refine named_rooted _ _ ((Arena.live_found _ _).mpr ⟨_, first⟩) fun frame found => ?_
  cases first.symm.trans found
  exact ⟨rfl, rfl⟩

theorem Stage.Sound.root_live {stage : Stage} (sound : stage.Sound) : stage.machine.frames.isLive Arena.root = true :=
  sound.ledger.live Arena.root List.mem_cons_self

theorem Stage.program_rooted (stage : Stage) (lines : List Node) (engine : Engine) (after : Machine) (lawful : engine.Lawful)
    (sound : stage.Sound) (outside : stage.calls = []) (left : (engine.evalProgram lines stage.machine).Leaves after)
    (rooted : stage.machine.frames.Rooted) : after.frames.Rooted := by
  rcases stage.program_cases lines engine lawful sound outside with exhausted | ⟨runner, loaded, leads, _, ended⟩
  · rw [exhausted] at left
    exact absurd left (Outcome.exhausted_leaves after)
  have loadedSound : (stage.put loaded).Sound := leads_sound stage stage _ sound leads
  have loadedRooted : loaded.frames.Rooted := stage.machine.frames.rooted_steady _ sound.root_live rooted stage
    (leads_steady stage stage _ sound (within_refl stage) leads).2
  rcases ended with ⟨_, last, finished, _, _, reaches, finish, done⟩ | ⟨failure, broken, _, _, breaks, dropped, failed⟩
  · rw [done] at left
    obtain rfl := (Outcome.done_leaves _ _ after).mp left
    have finishedSound := reaches_sound _ _ finished loadedSound reaches
    have finishedRooted := loaded.frames.rooted_steady _ loadedSound.root_live loadedRooted (stage.put loaded)
      (leads_steady (stage.put loaded) _ _ loadedSound (within_refl _) reaches.leads).2
    exact finished.frames.rooted_lasting _ finishedSound.root_live finishedRooted
      (closing_lasting (stage.put finished) (stage.put after) finishedSound (.closeBlock _ runner last after finish))
  · rw [failed] at left
    obtain rfl := (Outcome.failed_leaves _ _ after).mp left
    have brokenSound := breaks_sound (stage.put loaded) _ failure broken loadedSound breaks
    have brokenRooted := loaded.frames.rooted_steady _ loadedSound.root_live loadedRooted (stage.put loaded)
      ((stage.put loaded).breaks_steady _ broken failure loadedSound breaks)
    obtain ⟨frames, shrinks, rfl⟩ := Exec.reset_done broken after brokenSound.numbered.distinct dropped
    exact broken.frames.rooted_lasting _ brokenSound.root_live brokenRooted (broken.frames.lasting_shrinks frames shrinks)

theorem reachable_rooted (config : Config) (stage : Stage) (reached : Reachable config stage) :
    stage.machine.frames.Rooted := by
  induction reached with
  | start => exact Machine.start_rooted config
  | step stage after reached step rooted =>
    have sound := reachable_sound config stage reached
    exact stage.machine.frames.rooted_lasting _ sound.root_live rooted (step_lasting stage after sound step)
  | unwind stage after reached unwind rooted =>
    have sound := reachable_sound config stage reached
    exact stage.machine.frames.rooted_lasting _ sound.root_live rooted (unwind_lasting stage after sound unwind)
  | perform stage operation fuel after reached plain ran rooted =>
    have sound := reachable_sound config stage reached
    have follows := operation.lawful_perform _ (RuleSet.lawful_engine fuel) plain stage sound
    exact stage.machine.frames.rooted_steady _ sound.root_live rooted stage (stage.follows_steady _ _ after sound follows ran)
  | program stage lines fuel after reached outside ran rooted =>
    exact stage.program_rooted lines _ after (RuleSet.lawful_engine fuel) (reachable_sound config stage reached) outside ran rooted
  | load stage lines frame id after reached loaded rooted =>
    have sound := reachable_sound config stage reached
    have leads := (stage.load_leads lines frame id after sound loaded).1
    exact stage.machine.frames.rooted_steady _ sound.root_live rooted stage
      (Stage.leads_steady stage stage _ sound (Stage.within_refl stage) leads).2
  | finish stage id last after reached finished rooted =>
    have sound := reachable_sound config stage reached
    exact stage.machine.frames.rooted_lasting _ sound.root_live rooted
      (closing_lasting stage (stage.put after) sound (.closeBlock stage id last after finished))
  | reset stage after reached _ dropped rooted =>
    have sound := reachable_sound config stage reached
    obtain ⟨frames, shrinks, rfl⟩ := Exec.reset_done stage.machine after sound.numbered.distinct dropped
    exact stage.machine.frames.rooted_lasting _ sound.root_live rooted (stage.machine.frames.lasting_shrinks frames shrinks)
  | push stage parent id isFunction bindings after reached _ pushed rooted =>
    have sound := reachable_sound config stage reached
    obtain ⟨frames, pushes, rfl⟩ := Exec.push_frame_done parent id isFunction bindings stage.machine after pushed
    exact stage.machine.frames.rooted_lasting _ sound.root_live rooted
      (Arena.lasting_push _ frames _ parent id isFunction bindings sound.ledger pushes)
  | retain stage id after reached retained rooted =>
    have sound := reachable_sound config stage reached
    unfold Exec.retainFrame Exec.updateFrames at retained
    split at retained
    next frames retains =>
      cases retained
      exact stage.machine.frames.rooted_lasting _ sound.root_live rooted (Arena.lasting_retain _ frames id retains)
    next => cases retained
  | release stage id after reached _ released rooted =>
    have sound := reachable_sound config stage reached
    obtain ⟨frames, rfl, shrinks⟩ := Exec.released_shrinks id stage.machine after released
    exact stage.machine.frames.rooted_lasting _ sound.root_live rooted (stage.machine.frames.lasting_shrinks frames shrinks)

end Rooted

end CoopScript
