import CoopScript.Proofs.Stage.Schedule

set_option autoImplicit false
namespace CoopScript

namespace Machine

def enlisted (machine : Machine) (runners : List (RunnerId × Runner)) (count : Nat) : Machine :=
  { machine with runners := runners, runnerCount := count }

def Twin (machine other : Machine) : Prop := ∃ runners count, other = machine.enlisted runners count

theorem twin_refl (machine : Machine) : machine.Twin machine := ⟨machine.runners, machine.runnerCount, rfl⟩

-- Runners, and whether frames have results, are as they were, and no frame is gone.
structure Still (machine after : Machine) : Prop where
  runners : after.runners = machine.runners
  live : ∀ id, machine.frames.isLive id = true → after.frames.isLive id = true
  results : ∀ id, machine.frames.isLive id = true →
    after.frames.hasReturned id = machine.frames.hasReturned id

theorem still_refl (machine : Machine) : machine.Still machine := ⟨rfl, fun _ live => live, fun _ _ => rfl⟩

theorem still_trans (first second third : Machine) (left : first.Still second) (right : second.Still third) :
    first.Still third :=
  ⟨right.runners.trans left.runners, fun id live => right.live id (left.live id live),
    fun id live => (right.results id (left.live id live)).trans (left.results id live)⟩

end Machine

def Outcome.enlisted {α : Type} (runners : List (RunnerId × Runner)) (count : Nat) : Outcome α → Outcome α
  | .done value machine => .done value (machine.enlisted runners count)
  | .failed failure machine => .failed failure (machine.enlisted runners count)
  | .outOfFuel => .outOfFuel

namespace Stage

-- What is in progress in `stage` finds its runners as they were, and still has no result.
structure Keeps (stage : Stage) (after : Machine) : Prop where
  results : ∀ id ∈ stage.firm, stage.machine.frames.hasReturned id = false → after.frames.hasReturned id = false
  runners : ∀ id runner, stage.machine.runner? id = some runner → after.runner? id = some runner

inductive Agrees {α : Type} (stage : Stage) : Outcome α → Outcome α → Prop where
  | done (value : α) (machine other : Machine) (twin : machine.Twin other) (keeps : stage.Keeps machine) :
      Agrees stage (.done value machine) (.done value other)
  | failed (failure : Failure) (machine other : Machine) (twin : machine.Twin other)
      (keeps : stage.Keeps machine) : Agrees stage (.failed failure machine) (.failed failure other)
  | outOfFuel : Agrees stage .outOfFuel .outOfFuel

theorem keeps_here (stage : Stage) : stage.Keeps stage.machine :=
  ⟨fun _ _ none => none, fun _ _ known => known⟩

theorem keeps_trans (stage inner : Stage) (after : Machine) (firm : ∀ id ∈ stage.firm, id ∈ inner.firm)
    (first : stage.Keeps inner.machine) (second : inner.Keeps after) : stage.Keeps after :=
  ⟨fun id member none => second.results id (firm id member) (first.results id member none),
    fun id runner known => second.runners id runner (first.runners id runner known)⟩

theorem agrees_within {α : Type} (stage inner : Stage) (left right : Outcome α)
    (firm : ∀ id ∈ stage.firm, id ∈ inner.firm) (keeps : stage.Keeps inner.machine)
    (agrees : inner.Agrees left right) : stage.Agrees left right := by
  cases agrees with
  | done value machine other twin later =>
    exact .done value machine other twin (keeps_trans stage inner machine firm keeps later)
  | failed failure machine other twin later =>
    exact .failed failure machine other twin (keeps_trans stage inner machine firm keeps later)
  | outOfFuel => exact .outOfFuel

theorem firm_put (stage : Stage) (machine : Machine)
    (same : machine.registered.Perm stage.machine.registered) (owner : FrameId) :
    owner ∈ (stage.put machine).firm ↔ owner ∈ stage.firm := by
  simp only [firm, put, List.mem_cons, List.mem_append, (same.map Prod.snd).mem_iff]

theorem firm_live (stage : Stage) (sound : stage.Sound) (id : FrameId) (member : id ∈ stage.firm) :
    stage.machine.frames.isLive id = true :=
  sound.ledger.live id (within_owners stage stage (within_refl stage) id member)

theorem keeps_still (stage : Stage) (machine : Machine) (sound : stage.Sound)
    (still : stage.machine.Still machine) : stage.Keeps machine := by
  refine ⟨fun id member none => ?_, fun id runner known => ?_⟩
  · rw [still.results id (firm_live stage sound id member)]
    exact none
  · rw [Machine.runner?, still.runners]
    exact known

end Stage

namespace Exec
variable {α β σ : Type}

def Agree (step other : Exec α) : Prop :=
  ∀ (stage : Stage) (machine : Machine), stage.Sound → stage.machine.Twin machine →
    stage.Agrees (step stage.machine) (other machine)

theorem agrees_bind (stage : Stage) (sound : stage.Sound) (good : α → Prop) (step other : Exec α)
    (next later : α → Exec β) (machine : Machine) (follows : stage.Follows good step)
    (agrees : stage.Agrees (step stage.machine) (other machine))
    (further : ∀ value after twin, step stage.machine = .done value after → stage.Reaches step after →
      good value → (stage.put after).Sound → after.Twin twin →
      (stage.put after).Agrees (next value after) (later value twin)) :
    stage.Agrees ((step >>= next) stage.machine) ((other >>= later) machine) := by
  generalize ran : step stage.machine = left at agrees
  generalize ranOther : other machine = right at agrees
  cases agrees with
  | done value after twin same keeps =>
    rw [bind_done step next _ _ _ ran, bind_done other later _ _ _ ranOther]
    rcases follows_cases stage good step follows with
      ⟨_, _, done, reaches, fine⟩ | ⟨_, _, failed, _⟩ | exhausted
    · rw [ran] at done
      cases done
      have afterSound := Stage.reaches_sound stage step after sound reaches
      refine Stage.agrees_within stage (stage.put after) _ _ ?_ keeps
        (further value after twin ran reaches fine afterSound same)
      exact fun id => (Stage.firm_put stage after reaches.registered id).mpr
    · rw [ran] at failed
      cases failed
    · rw [ran] at exhausted
      cases exhausted
  | failed failure after twin same keeps =>
    rw [bind_failed step next _ _ _ ran, bind_failed other later _ _ _ ranOther]
    exact .failed failure after twin same keeps
  | outOfFuel =>
    rw [bind_exhausted step next _ ran, bind_exhausted other later _ ranOther]
    exact .outOfFuel

theorem agree_bind (good : α → Prop) (step other : Exec α) (next later : α → Exec β)
    (lawful : step.Lawful good) (agree : step.Agree other)
    (further : ∀ value, good value → (next value).Agree (later value)) :
    (step >>= next).Agree (other >>= later) := by
  intro stage machine sound twin
  apply agrees_bind stage sound good step other next later machine (lawful stage sound)
    (agree stage machine sound twin)
  intro value after twin _ _ fine afterSound same
  exact further value fine (stage.put after) twin afterSound same

theorem agree_map_failure (change : Failure → Failure) (step other : Exec α) (agree : step.Agree other) :
    (step.mapFailure change).Agree (other.mapFailure change) := by
  intro stage machine sound twin
  have agrees := agree stage machine sound twin
  unfold mapFailure
  generalize step stage.machine = left at agrees ⊢
  generalize other machine = right at agrees ⊢
  cases agrees with
  | done value after twin same keeps => exact .done value after twin same keeps
  | failed failure after twin same keeps => exact .failed (change failure) after twin same keeps
  | outOfFuel => exact .outOfFuel

-- A step that neither sees the runners nor changes them, and gives no frame a result or takes it away.
structure Inert (step : Exec α) : Prop where
  blind : ∀ machine runners count, step (machine.enlisted runners count) = (step machine).enlisted runners count
  still : ∀ machine after, (step machine).Leaves after → machine.Still after

theorem agree_inert (step : Exec α) (inert : step.Inert) : step.Agree step := by
  rintro stage _ sound ⟨runners, count, rfl⟩
  rw [inert.blind stage.machine runners count]
  have still := fun after left => stage.keeps_still after sound (inert.still stage.machine after left)
  cases ran : step stage.machine with
  | done value after => exact .done value after _ ⟨runners, count, rfl⟩ (still after (.inl ⟨value, ran⟩))
  | failed failure after =>
    exact .failed failure after _ ⟨runners, count, rfl⟩ (still after (.inr ⟨failure, ran⟩))
  | outOfFuel => exact .outOfFuel

theorem inert_pure (value : α) : Inert (Pure.pure value : Exec α) := by
  refine ⟨fun _ _ _ => rfl, fun machine after left => ?_⟩
  rcases left with ⟨_, same⟩ | ⟨_, same⟩ <;> cases same
  exact machine.still_refl

theorem inert_raise (failure : Failure) : Inert (raise failure : Exec α) := by
  refine ⟨fun _ _ _ => rfl, fun machine after left => ?_⟩
  rcases left with ⟨_, same⟩ | ⟨_, same⟩ <;> cases same
  exact machine.still_refl

theorem inert_exhausted : Inert (exhausted : Exec α) := by
  refine ⟨fun _ _ _ => rfl, fun machine after left => ?_⟩
  rcases left with ⟨_, same⟩ | ⟨_, same⟩ <;> cases same

theorem inert_read (view : Machine → α)
    (blind : ∀ machine runners count, view (machine.enlisted runners count) = view machine) :
    Inert (read view) := by
  refine ⟨fun machine runners count => by simp only [read, blind, Outcome.enlisted], fun machine after left => ?_⟩
  rcases left with ⟨_, same⟩ | ⟨_, same⟩ <;> cases same
  exact machine.still_refl

theorem inert_modify (change : Machine → Machine)
    (blind : ∀ machine runners count,
      change (machine.enlisted runners count) = (change machine).enlisted runners count)
    (still : ∀ machine : Machine, machine.Still (change machine)) : Inert (modify change) := by
  refine ⟨fun machine runners count => by simp only [modify, blind, Outcome.enlisted],
    fun machine after left => ?_⟩
  rcases left with ⟨_, same⟩ | ⟨_, same⟩ <;> cases same
  exact still machine

theorem inert_bind (step : Exec α) (next : α → Exec β) (inert : step.Inert)
    (further : ∀ value, (next value).Inert) : (step >>= next).Inert := by
  constructor
  · intro machine runners count
    have blind := inert.blind machine runners count
    cases ran : step machine with
    | done value after =>
      rw [ran] at blind
      rw [bind_done step next _ _ value blind, bind_done step next _ _ value ran]
      exact (further value).blind after runners count
    | failed failure after =>
      rw [ran] at blind
      rw [bind_failed step next _ _ failure blind, bind_failed step next _ _ failure ran]
      rfl
    | outOfFuel =>
      rw [ran] at blind
      rw [bind_exhausted step next _ blind, bind_exhausted step next _ ran]
      rfl
  · intro machine after left
    rcases leaves_bind step next machine after left with early | ⟨value, middle, ran, late⟩
    · exact inert.still machine after early
    · exact Machine.still_trans machine middle after (inert.still machine middle (.inl ⟨value, ran⟩))
        ((further value).still middle after late)

end Exec

theorem Arena.updated_still (arena after : Arena) (id other : FrameId) (change : Frame → Frame)
    (sameResult : ∀ frame, (change frame).returned = frame.returned)
    (updated : arena.update id change = .ok after) (live : arena.isLive other = true) :
    after.isLive other = true ∧ after.hasReturned other = arena.hasReturned other := by
  obtain ⟨frame, found, rfl⟩ := update_done arena after id change updated
  obtain ⟨content, known⟩ := (live_found arena other).mp live
  have read := frame_set arena id other frame (change frame) found
  by_cases here : other = id
  · subst here
    obtain rfl := Option.some.inj (found.symm.trans known)
    rw [if_pos rfl] at read
    exact ⟨(live_found _ other).mpr ⟨_, read⟩, by simp only [hasReturned, read, known, sameResult]⟩
  · rw [if_neg here] at read
    exact ⟨(live_found _ other).mpr ⟨content, read.trans known⟩, by simp only [hasReturned, read]⟩

theorem Arena.set_variable_still (arena after : Arena) (id other : FrameId) (name : String) (value : Value)
    (bound : arena.setVariable id name value = .ok after) (live : arena.isLive other = true) :
    after.isLive other = true ∧ after.hasReturned other = arena.hasReturned other :=
  updated_still arena after id other (fun frame => { frame with bindings := frame.bindings.insert name value })
    (fun _ => rfl) bound live

namespace Exec

theorem inert_ask {α : Type} (ask : Arena → Except Cause α) : (askFrames ask).Inert := by
  constructor
  · intro machine runners count
    have same : (machine.enlisted runners count).frames = machine.frames := rfl
    unfold askFrames
    rw [same]
    cases ask machine.frames <;> rfl
  · intro machine after left
    unfold askFrames at left
    cases asked : ask machine.frames <;> rw [asked] at left <;> rcases left with ⟨_, same⟩ | ⟨_, same⟩ <;>
      cases same <;> exact machine.still_refl

theorem inert_update (change : Arena → Except Cause Arena)
    (still : ∀ arena after, change arena = .ok after → ∀ id, arena.isLive id = true →
      after.isLive id = true ∧ after.hasReturned id = arena.hasReturned id) : (updateFrames change).Inert := by
  constructor
  · intro machine runners count
    have same : (machine.enlisted runners count).frames = machine.frames := rfl
    unfold updateFrames
    rw [same]
    cases change machine.frames <;> rfl
  · intro machine after left
    unfold updateFrames at left
    cases changed : change machine.frames with
    | ok frames =>
      rw [changed] at left
      rcases left with ⟨_, same⟩ | ⟨_, same⟩ <;> cases same
      have kept := still machine.frames frames changed
      exact ⟨rfl, fun id live => (kept id live).1, fun id live => (kept id live).2⟩
    | error cause =>
      rw [changed] at left
      rcases left with ⟨_, same⟩ | ⟨_, same⟩ <;> cases same
      exact machine.still_refl

theorem inert_look_up (frame : FrameId) (name : String) : (lookUp frame name).Inert := inert_ask _

theorem inert_set_variable (frame : FrameId) (name : String) (value : Value) :
    (setVariable frame name value).Inert := by
  apply inert_update
  intro arena after updated id live
  exact arena.set_variable_still after frame id name value updated live

theorem inert_assign (frame : FrameId) (name : String) (value : Value) :
    (assign frame name value).Inert := by
  apply inert_update
  intro arena after assigned id live
  unfold Arena.assign at assigned
  split at assigned
  next target _ => exact arena.set_variable_still after target id name value assigned live
  next => cases assigned

theorem inert_next_identity : nextIdentity.Inert := by
  refine ⟨fun _ _ _ => rfl, fun machine after left => ?_⟩
  rcases left with ⟨_, same⟩ | ⟨_, same⟩ <;> cases same
  exact ⟨rfl, fun _ live => live, fun _ _ => rfl⟩

theorem inert_create_task : createTask.Inert := by
  refine ⟨fun _ _ _ => rfl, fun machine after left => ?_⟩
  rcases left with ⟨_, same⟩ | ⟨_, same⟩ <;> cases same
  exact ⟨rfl, fun _ live => live, fun _ _ => rfl⟩

theorem inert_consume (task : TaskId) : (consumeTask task).Inert := by
  constructor
  · intro machine runners count
    have same : (machine.enlisted runners count).tasks = machine.tasks := rfl
    unfold consumeTask
    rw [same]
    cases machine.tasks.consume task <;> rfl
  · intro machine after left
    unfold consumeTask at left
    cases consumed : machine.tasks.consume task <;> rw [consumed] at left <;>
      rcases left with ⟨_, same⟩ | ⟨_, same⟩ <;> cases same <;>
      exact ⟨rfl, fun _ live => live, fun _ _ => rfl⟩

theorem inert_array (items : List Value) : (array items).Inert :=
  inert_bind _ _ inert_next_identity fun _ => inert_read _ fun _ _ _ => rfl

theorem inert_function (content : Function Value) : (function content).Inert :=
  inert_bind _ _ inert_next_identity fun _ => inert_read _ fun _ _ _ => rfl

-- A change of what frames and runners have no part in.
theorem inert_quiet (change : Machine → Machine)
    (blind : ∀ machine runners count,
      change (machine.enlisted runners count) = (change machine).enlisted runners count)
    (same : ∀ machine, (change machine).runners = machine.runners ∧ (change machine).frames = machine.frames) :
    (modify change).Inert := by
  refine inert_modify change blind fun machine => ⟨(same machine).1, fun _ live => ?_, fun _ _ => ?_⟩
  · rw [(same machine).2]
    exact live
  · rw [(same machine).2]

theorem inert_write_line (content : String) : (writeLine content).Inert :=
  inert_quiet _ (fun _ _ _ => rfl) fun _ => ⟨rfl, rfl⟩

theorem inert_halt : halt.Inert := inert_quiet _ (fun _ _ _ => rfl) fun _ => ⟨rfl, rfl⟩

theorem inert_wait : wait.Inert := inert_quiet _ (fun _ _ _ => rfl) fun _ => ⟨rfl, rfl⟩

theorem inert_register_event (event : Microevent) : (registerEvent event).Inert := by
  refine ⟨fun _ _ _ => rfl, fun machine after left => ?_⟩
  rcases left with ⟨_, same⟩ | ⟨_, same⟩ <;> cases same
  exact ⟨rfl, fun _ live => live, fun _ _ => rfl⟩

theorem inert_spawn_blocking (outcome : Option Scalar) (milliseconds : Nat) :
    (spawnBlocking outcome milliseconds).Inert := by
  refine inert_bind _ _ inert_create_task fun task => ?_
  refine inert_bind _ _ (inert_quiet _ (fun _ _ _ => rfl) fun _ => ⟨rfl, rfl⟩) fun _ => ?_
  have promised : (promise task).Inert := inert_read _ fun _ _ _ => rfl
  refine inert_bind _ _ (inert_read _ fun _ _ _ => rfl) fun event => ?_
  cases event with
  | some event => exact promised
  | none =>
    refine inert_bind _ _ (inert_register_event .pollPool) fun id => ?_
    exact inert_bind _ _ (inert_quiet _ (fun _ _ _ => rfl) fun _ => ⟨rfl, rfl⟩) fun _ => promised

theorem inert_each {α : Type} (action : α → Exec Unit) (items : List α)
    (inert : ∀ item, (action item).Inert) : (each action items).Inert := by
  induction items with
  | nil => exact inert_pure ()
  | cons first rest ih => exact inert_bind _ _ (inert first) fun _ => ih

theorem inert_poll_pool : pollPool.Inert := by
  have quiet : ∀ change : Machine → Machine, (∀ machine runners count,
      change (machine.enlisted runners count) = (change machine).enlisted runners count) →
      (∀ machine, (change machine).runners = machine.runners ∧ (change machine).frames = machine.frames) →
      (modify change).Inert := inert_quiet
  have forget : forgetPool.Inert :=
    inert_bind _ _ (quiet _ (fun _ _ _ => rfl) fun _ => ⟨rfl, rfl⟩) fun _ => inert_pure _
  refine inert_bind _ _ (inert_read _ fun _ _ _ => rfl) fun pool => ?_
  cases pool with
  | none => exact forget
  | some pool =>
    refine inert_bind _ _ (quiet _ (fun _ _ _ => rfl) fun _ => ⟨rfl, rfl⟩) fun _ => ?_
    refine inert_bind _ _ (inert_read _ fun _ _ _ => rfl) fun clock => ?_
    simp only
    refine inert_bind _ _ (quiet _ (fun _ _ _ => rfl) fun _ => ⟨rfl, rfl⟩) fun _ => ?_
    split
    · split
      · exact forget
      · exact inert_pure _
    · refine inert_bind _ _ (inert_each _ _ fun job => ?_) fun _ => inert_pure _
      exact quiet _ (fun _ _ _ => rfl) fun _ => ⟨rfl, rfl⟩

end Exec

end CoopScript
