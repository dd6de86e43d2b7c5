import CoopScript.Proofs.Stage.Reachable
import CoopScript.Proofs.Stage.Twin

set_option autoImplicit false
namespace CoopScript

def Machine.Awaits (machine : Machine) (id : FrameId) : Prop :=
  ∃ frame ∈ machine.asyncFrames, machine.frames.Encloses id frame

namespace Stage

/-- Every live frame is held once for each runner, waiting body and call that is in it, for each frame
right inside it and for each of the host's own holds, and not otherwise. Whatever is used lives, and
whatever lives is used or is around a frame that is. -/
structure Ledger (stage : Stage) : Prop where
  holds : ∀ id frame, stage.machine.frames.frame? id = some frame →
    frame.holds = (if id = Arena.root then 1 else 0) +
      stage.machine.runners.countP (fun entry => entry.2.frame = id) +
      stage.machine.asyncFrames.count id + stage.machine.frames.children id +
      stage.calls.countP (fun call => call.frame = id) + stage.held.count id
  depth : stage.machine.depth = stage.calls.countP Call.running
  used : ∀ id ∈ stage.owners, stage.machine.frames.isLive id = true
  kept : ∀ id, stage.machine.frames.isLive id = true →
    ∃ owner ∈ stage.owners, stage.machine.frames.Encloses id owner

/-- What a run leaves as it was. Only bodies that came to wait or were started can have changed the holds
of a frame, by themselves or by the frames around them. -/
structure Restored (stage : Stage) (after : Machine) : Prop where
  depth : after.depth = stage.machine.depth
  runners : after.registered.Perm stage.machine.registered
  used : ∀ owner ∈ stage.firm, ∀ id,
    stage.machine.frames.Encloses id owner ↔ after.frames.Encloses id owner
  holds : ∀ id frame later, stage.machine.frames.frame? id = some frame →
    after.frames.frame? id = some later →
    later.holds + stage.machine.asyncFrames.count id + stage.machine.frames.children id =
      frame.holds + after.asyncFrames.count id + after.frames.children id
  untouched : ∀ id frame, stage.machine.frames.frame? id = some frame →
    ¬ stage.machine.Awaits id → ¬ after.Awaits id →
    ∃ later, after.frames.frame? id = some later ∧ later.holds = frame.holds
  gone : ∀ id, stage.machine.frames.isLive id = true → after.frames.isLive id = false →
    stage.machine.Awaits id
  fresh : ∀ id, after.frames.isLive id = true → stage.machine.frames.isLive id = false →
    after.Awaits id

theorem count_registered (machine : Machine) (id : FrameId) :
    (machine.registered.map Prod.snd).count id =
      machine.runners.countP fun entry => entry.2.frame = id := by
  unfold Machine.registered List.count
  rw [List.map_map, List.countP_map]
  exact List.countP_congr fun entry _ => by simp

theorem count_calls (calls : List Call) (id : FrameId) :
    (calls.map Call.frame).count id = calls.countP fun call => call.frame = id := by
  unfold List.count
  rw [List.countP_map]
  exact List.countP_congr fun call _ => by simp

theorem sound_ledger (stage : Stage) (sound : stage.Sound) : stage.Ledger := by
  refine ⟨fun id frame found => ?_, sound.depth, sound.ledger.live, fun id live => ?_⟩
  · have balance := sound.ledger.balance id frame found
    have counted : stage.owners.count id = _ := count_owners stage.calls stage.held stage.machine id
    rw [counted, count_registered, count_calls] at balance
    simp only [eq_comm (a := id)] at *
    omega
  · exact Arena.live_enclosed stage.machine.frames stage.owners id sound.ledger live

-- A frame that lives, but not for a body that waits, is around one that something else uses.
theorem firm_enclosed (stage : Stage) (sound : stage.Sound) (id : FrameId)
    (live : stage.machine.frames.isLive id = true) (idle : ¬ stage.machine.Awaits id) :
    ∃ owner ∈ stage.firm, stage.machine.frames.Encloses id owner := by
  obtain ⟨owner, owned, encloses⟩ := Arena.live_enclosed _ _ id sound.ledger live
  by_cases waits : owner ∈ stage.machine.asyncFrames
  · exact absurd ⟨owner, waits, encloses⟩ idle
  · refine ⟨owner, ?_, encloses⟩
    simp only [owners, firm, List.mem_cons, List.mem_append] at owned ⊢
    tauto

section Between
variable (base : Stage) (machine after : Machine) (sound : (base.put machine).Sound)
  (registered : machine.registered.Perm base.machine.registered)
  (steady : base.Steady machine.frames after.frames)
include sound registered steady

theorem lives_on (id : FrameId) (live : machine.frames.isLive id = true) (idle : ¬ machine.Awaits id) :
    after.frames.isLive id = true := by
  obtain ⟨owner, firm, encloses⟩ := firm_enclosed (base.put machine) sound id live idle
  have held := (firm_put base machine registered owner).mp firm
  exact (Arena.encloses_live _ _ _ ((steady.around owner held id).mp encloses)).1

theorem insider_stays (id child : FrameId) (idle : ¬ machine.Awaits id)
    (inside : child ∈ machine.frames.insiders id) : child ∈ after.frames.insiders id := by
  obtain ⟨frame, found, parent⟩ := (Arena.insiders_found machine.frames id child).mp inside
  have live : machine.frames.isLive child = true := (Arena.live_found _ child).mpr ⟨frame, found⟩
  have childIdle : ¬ machine.Awaits child := by
    rintro ⟨waiting, member, encloses⟩
    obtain ⟨depth, anchored⟩ := sound.ledger.anchored child live
    have parentLive := Arena.parent_live _ depth child id frame anchored found parent
    exact idle ⟨waiting, member,
      Arena.encloses_trans _ id child waiting (.around child id frame found parent (.self parentLive)) encloses⟩
  obtain ⟨owner, firm, encloses⟩ := firm_enclosed (base.put machine) sound child live childIdle
  have held := (firm_put base machine registered owner).mp firm
  have later := (steady.around owner held child).mp encloses
  obtain ⟨content, again⟩ := (Arena.live_found _ child).mp (Arena.encloses_live _ _ _ later).1
  have same := steady.same owner held child encloses frame content found again
  exact (Arena.insiders_found after.frames id child).mpr ⟨content, again, same.1.trans parent⟩

end Between

-- Whatever a script does to a stage, whether it ends or fails, its accounts close.
theorem steady_restored (stage : Stage) (after : Machine) (sound : stage.Sound)
    (afterSound : (stage.put after).Sound)
    (registered : after.registered.Perm stage.machine.registered)
    (steady : stage.Steady stage.machine.frames after.frames) : stage.Restored after := by
  have backwards := steady_symm stage _ _ steady
  have balance : ∀ id frame later, stage.machine.frames.frame? id = some frame →
      after.frames.frame? id = some later →
      later.holds + stage.machine.asyncFrames.count id + stage.machine.frames.children id =
        frame.holds + after.asyncFrames.count id + after.frames.children id := by
    intro id frame later found again
    have before := sound.ledger.balance id frame found
    have now := afterSound.ledger.balance id later again
    have counted : stage.owners.count id = _ := count_owners stage.calls stage.held stage.machine id
    have recounted : (stage.put after).owners.count id = _ := count_owners stage.calls stage.held after id
    have listed := (registered.map Prod.snd).count_eq id
    simp only [put] at now
    rw [counted] at before
    rw [show (stage.put after).owners = (Stage.mk stage.calls stage.held after).owners from rfl] at recounted
    omega
  refine ⟨afterSound.depth.trans sound.depth.symm, registered, steady.around, balance, ?_, ?_, ?_⟩
  · intro id frame found idle laterIdle
    have live := lives_on stage stage.machine after sound (.refl _) steady id
      ((Arena.live_found _ id).mpr ⟨frame, found⟩) idle
    obtain ⟨later, again⟩ := (Arena.live_found _ id).mp live
    have unmoved : ∀ machine : Machine, machine.frames.isLive id = true → ¬ machine.Awaits id →
        machine.asyncFrames.count id = 0 := fun machine live idle =>
      List.count_eq_zero.mpr fun member => idle ⟨id, member, .self live⟩
    have inside : after.frames.children id = stage.machine.frames.children id :=
      Arena.children_same _ _ id fun child =>
        ⟨insider_stays stage stage.machine after sound (.refl _) steady id child idle,
          insider_stays stage after stage.machine afterSound registered backwards id child laterIdle⟩
    have none := unmoved stage.machine ((Arena.live_found _ id).mpr ⟨frame, found⟩) idle
    have stillNone := unmoved after live laterIdle
    have closed := balance id frame later found again
    exact ⟨later, again, by omega⟩
  · intro id live dead
    by_contra idle
    rw [lives_on stage stage.machine after sound (.refl _) steady id live idle] at dead
    cases dead
  · intro id live missing
    by_contra idle
    rw [lives_on stage after stage.machine afterSound registered backwards id live idle] at missing
    cases missing

theorem perform_restored (stage : Stage) (operation : Operation) (fuel : Nat) (after : Machine)
    (sound : stage.Sound) (plain : operation.Plain)
    (ran : (operation.perform (RuleSet.standard.engine fuel) stage.machine).Leaves after) :
    stage.Restored after := by
  have follows := operation.lawful_perform _ (RuleSet.lawful_engine fuel) plain stage sound
  exact steady_restored stage after sound (stage.follows_sound _ _ after sound follows ran)
    (stage.follows_registered _ _ after follows ran) (stage.follows_steady _ _ after sound follows ran)

end Stage

/-- The accounts are in order wherever a run comes to, and the lines of a function are run within its call, one level
deeper, unless they are refused. -/
structure Exec.Balanced {α : Type} (step : Exec α) (stage : Stage) : Prop where
  places : ∀ {β : Type} (inner : Exec β) (place : Stage), step.Comes stage inner place → place.Ledger
  lines : ∀ (engine : Engine) (name : String) (lines : List Node) (frame : FrameId) (task : Option TaskId)
    (calls : List Call) (held : List FrameId) (machine : Machine),
    step.Comes stage (engine.runFrame name lines frame) ⟨⟨frame, task, false⟩ :: calls, held, machine⟩ →
    machine.config.depthLimit ≤ machine.depth ∨ step.Comes stage (engine.body lines frame)
      ⟨⟨frame, task, true⟩ :: calls, held, { machine with depth := machine.depth + 1 }⟩

theorem Engine.run_frame_comes (engine : Engine) (name : String) (lines : List Node) (frame : FrameId)
    (task : Option TaskId) (calls : List Call) (held : List FrameId) (machine : Machine)
    (shallow : ¬ machine.config.depthLimit ≤ machine.depth) :
    (engine.runFrame name lines frame).Comes ⟨⟨frame, task, false⟩ :: calls, held, machine⟩ (engine.body lines frame)
      ⟨⟨frame, task, true⟩ :: calls, held, { machine with depth := machine.depth + 1 }⟩ := by
  let stage : Stage := ⟨⟨frame, task, false⟩ :: calls, held, machine⟩
  have looks : ∀ {α : Type} (view : Machine → α), (Exec.read view).Takes stage stage := fun view =>
    .stroke _ stage stage (.inl ⟨view machine, rfl⟩) (.inl rfl)
  unfold Engine.runFrame
  refine .next (Exec.read (·.config.depthLimit)) _ stage stage _ rfl (looks _) _ _ ?_
  refine .next (Exec.read (·.depth)) _ stage stage _ rfl (looks _) _ _ ?_
  rw [if_neg shallow]
  have begun := Step.beginRun frame task calls held machine
  refine .next (Exec.modify fun machine => { machine with depth := machine.depth + 1 }) _ stage _ () rfl
    (.stroke _ stage _ (.inl ⟨(), rfl⟩) (.inr (.inl begun))) _ _ ?_
  exact .first _ _ _ _ _ (.attempt _ _ _ _ (.here _ _))

theorem Exec.balanced {α : Type} (step : Exec α) (stage : Stage) (sound : stage.Sound) : step.Balanced stage where
  places inner place comes := place.sound_ledger (comes_sound step stage inner place sound comes)
  lines engine name lines frame task calls held machine comes := by
    by_cases deep : machine.config.depthLimit ≤ machine.depth
    · exact .inl deep
    · exact .inr (comes_further _ _ _ _ _ _ comes (engine.run_frame_comes name lines frame task calls held machine deep))

/-- The accounts are in order wherever scripts and hosts may lead, and running anything from there leaves
the depth, the runners and the holds of frames as they were, but for the bodies that came to wait or were
started. In the middle of runs they are in order too, and every run is made of strokes that keep them so. -/
theorem frame_ledger (config : Config) (stage : Stage) (reached : Reachable config stage) :
    stage.Ledger ∧
    (∀ (operation : Operation) (fuel : Nat) (after : Machine), operation.Plain →
      (operation.perform (RuleSet.standard.engine fuel) stage.machine).Leaves after →
      stage.Restored after ∧ (operation.perform (RuleSet.standard.engine fuel)).Takes stage (stage.put after)) ∧
    (∀ (operation : Operation) (fuel : Nat), (operation.perform (RuleSet.standard.engine fuel)).Balanced stage) ∧
    ∀ (lines : List Node) (fuel : Nat), ((RuleSet.standard.engine fuel).evalProgram lines).Balanced stage := by
  have sound := reachable_sound config stage reached
  refine ⟨stage.sound_ledger sound, fun operation fuel after plain ran => ⟨?_, ?_⟩, fun _ _ => Exec.balanced _ stage sound,
    fun _ _ => Exec.balanced _ stage sound⟩
  · exact stage.perform_restored operation fuel after sound plain ran
  · have follows := operation.lawful_perform _ (RuleSet.lawful_engine fuel) plain stage sound
    exact stage.follows_takes _ _ after follows ran

-- An asynchronous function is declared and called; its body is left waiting.
theorem frame_ledger_spawned : ∃ after, (Stage.start .standard).Ledger ∧
    (Stage.start .standard).Restored after ∧ after.asyncFrames.length = 1 := by
  let later : List Node := [.function "fn" (.start none) "later" [] true [],
    .call "call" (.start none) (.reference "later" (.start none)) []]
  let operation : Operation := .runBlock later Arena.root
  obtain ⟨value, after, outcome, one⟩ := Outcome.ends_with_done
    (operation.perform (RuleSet.standard.engine 5) (Stage.start .standard).machine)
    (fun after => after.asyncFrames.length == 1) (by decide +kernel)
  have accounts := frame_ledger .standard (.start .standard) .start
  exact ⟨after, accounts.1, (accounts.2.1 operation 5 after trivial (.inl ⟨value, outcome⟩)).1, beq_iff_eq.mp one⟩

end CoopScript
