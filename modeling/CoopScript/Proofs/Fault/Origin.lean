import CoopScript.Proofs.Trait.Host

set_option autoImplicit false
namespace CoopScript

/-- How a fault comes about: without a position, with the one of the argument that it is about, with another one, or as
what is told of a text that cannot be read. -/
inductive Origin where
  | plain (cause : Cause)
  | argument (cause : Cause) (node : Node)
  | located (cause : Cause) (position : Position)
  | unreadable (diagnostic : Diagnostic)

-- What is going on around a fault: a node is being evaluated, or a line executed.
inductive Surrounding where
  | evaluation (node : Node)
  | line (node : Node)

namespace Surrounding

def position? : Surrounding → Option Position
  | evaluation node | line node => node.position?

def note? : Surrounding → Option Note
  | evaluation _ => none
  | line node => some (.whileExecuting node.describe node.position?)

end Surrounding

namespace Origin

def diagnostic : Origin → Diagnostic
  | plain cause => .of cause
  | argument cause node => ⟨cause, node.position?, []⟩
  | located cause position => .located cause position
  | unreadable diagnostic => diagnostic

def isUnreadable : Origin → Bool
  | unreadable _ => true
  | _ => false

-- What is reported of a fault, the innermost of what is going on around it first.
def reported (origin : Origin) (around : List Surrounding) : Diagnostic :=
  { cause := origin.diagnostic.cause
    position := origin.diagnostic.position.or (around.findSome? Surrounding.position?)
    notes := origin.diagnostic.notes ++ around.filterMap Surrounding.note? }

variable (origin : Origin) (around : List Surrounding)

theorem reported_alone : origin.reported [] = origin.diagnostic := by
  simp only [reported, List.findSome?_nil, Option.or_none, List.filterMap_nil, List.append_nil]

-- What is added by one thing more that is going on around.
theorem reported_around (last : Surrounding) : origin.reported (around ++ [last]) =
    ⟨(origin.reported around).cause, (origin.reported around).position.or last.position?,
      (origin.reported around).notes ++ last.note?.toList⟩ := by
  have position : [last].findSome? Surrounding.position? = last.position? := by
    rw [List.findSome?_cons]
    cases last.position? <;> rfl
  have note : [last].filterMap Surrounding.note? = last.note?.toList := by
    rw [List.filterMap_cons]
    cases last.note? <;> rfl
  simp only [reported, List.findSome?_append, List.filterMap_append, position, note, Option.or_assoc, List.append_assoc]

theorem reported_evaluation (node : Node) (position : Position) (here : node.position? = some position) :
    (Failure.fault (origin.reported around)).orPosition (some position) =
      .fault (origin.reported (around ++ [.evaluation node])) := by
  rw [reported_around]
  simp only [Failure.orPosition, Diagnostic.orPosition, Surrounding.position?, here, Surrounding.note?,
    Option.toList_none, List.append_nil]
  cases (origin.reported around).position <;> rfl

theorem reported_line (node : Node) :
    Engine.trace node (.fault (origin.reported around)) = .fault (origin.reported (around ++ [.line node])) := by
  rw [reported_around]
  simp only [Engine.trace, Surrounding.position?, Surrounding.note?, Option.toList_some]
  cases node.position? with
  | none =>
    simp only [Failure.orPosition, Failure.withNote, Diagnostic.withNote, Option.or_none]
  | some position =>
    simp only [Failure.orPosition, Failure.withNote, Diagnostic.withNote, Diagnostic.orPosition]
    cases (origin.reported around).position <;> rfl

end Origin

namespace Exec

-- Where a run fails, and what is going on around that place.
inductive Raises : {α : Type} → Exec α → Machine → Origin → List Surrounding → Prop where
  | small {α : Type} (step : Exec α) (small : step.Small) (machine after : Machine) (cause : Cause)
      (ran : step machine = .failed (.of cause) after) : Raises step machine (.plain cause) []
  | located {α : Type} (cause : Cause) (position : Position) (machine : Machine) :
      Raises (failAt cause position : Exec α) machine (.located cause position) []
  | argument (engine : Engine) (function : String) (parameters : Parameters) (frame : FrameId) (binding : Binding)
      (argument : Node) (rest : List Node) (machine : Machine) (cause : Cause)
      (refused : binding.place function parameters argument = .error cause) :
      Raises (engine.bindAll function parameters frame binding (argument :: rest)) machine (.argument cause argument) []
  | unreadable (rules : RuleSet) (source : String) (file : Option String) (machine after : Machine)
      (diagnostic : Diagnostic) (ran : rules.load source file machine = .failed (.fault diagnostic) after) :
      Raises (rules.load source file) machine (.unreadable diagnostic) []
  | first {α β : Type} (step : Exec α) (next : α → Exec β) (machine : Machine) (origin : Origin)
      (around : List Surrounding) (raises : Raises step machine origin around) :
      Raises (step >>= next) machine origin around
  | next {α β : Type} (step : Exec α) (next : α → Exec β) (machine middle : Machine) (value : α) (origin : Origin)
      (around : List Surrounding) (ran : step machine = .done value middle)
      (raises : Raises (next value) middle origin around) : Raises (step >>= next) machine origin around
  | held {α β γ : Type} (step : Exec α) (cleanup : Except Failure α → Exec β) (next : β → Except Failure α → Exec γ)
      (reraises : ∀ result failure, next result (.error failure) = raise failure) (machine left after : Machine)
      (failure : Failure) (result : β) (origin : Origin) (around : List Surrounding)
      (ran : step machine = .failed failure left) (cleaned : cleanup (.error failure) left = .done result after)
      (raises : Raises step machine origin around) :
      Raises (step.attempt >>= fun outcome => cleanup outcome >>= fun result => next result outcome) machine origin around
  | evaluation (rules : RuleSet) (engine : Engine) (node : Node) (frame : FrameId) (step : Exec Value)
      (position : Position) (here : node.position? = some position)
      (evaluates : rules.evaluate engine node frame = step.mapFailure (·.orPosition (some position)))
      (machine : Machine) (origin : Origin) (around : List Surrounding) (raises : Raises step machine origin around) :
      Raises (rules.evaluate engine node frame) machine origin (around ++ [.evaluation node])
  | line (engine : Engine) (node : Node) (frame : FrameId) (machine : Machine) (origin : Origin)
      (around : List Surrounding) (raises : Raises (engine.execute node frame) machine origin around) :
      Raises (engine.executeLine node frame) machine origin (around ++ [.line node])

theorem raises_failed {α : Type} (step : Exec α) (machine : Machine) (origin : Origin) (around : List Surrounding)
    (raises : step.Raises machine origin around) :
    ∃ after, step machine = .failed (.fault (origin.reported around)) after := by
  induction raises with
  | small step _ machine after cause ran => exact ⟨after, ran.trans (by rw [Origin.reported_alone]; rfl)⟩
  | located cause position machine => exact ⟨machine, by rw [Origin.reported_alone]; rfl⟩
  | argument engine function parameters frame binding argument rest machine cause refused =>
    refine ⟨machine, ?_⟩
    rw [engine.bind_all_refused function parameters frame binding argument rest cause refused, Origin.reported_alone]
    rfl
  | unreadable rules source file machine after diagnostic ran =>
    exact ⟨after, ran.trans (by rw [Origin.reported_alone]; rfl)⟩
  | first step next machine origin around _ ih =>
    obtain ⟨after, failed⟩ := ih
    exact ⟨after, bind_failed step next machine after _ failed⟩
  | next step next machine middle value origin around ran _ ih =>
    obtain ⟨after, failed⟩ := ih
    exact ⟨after, (bind_done step next machine middle value ran).trans failed⟩
  | held step cleanup next reraises machine left after failure result origin around ran cleaned _ ih =>
    obtain ⟨_, failed⟩ := ih
    cases ran.symm.trans failed
    have attempted : step.attempt machine = .done (.error (.fault (origin.reported around))) left := by
      simp only [attempt, ran]
    refine ⟨after, ?_⟩
    rw [bind_done _ _ machine left _ attempted, bind_done _ _ left after result cleaned, reraises]
    rfl
  | evaluation rules engine node frame step position here evaluates machine origin around _ ih =>
    obtain ⟨after, failed⟩ := ih
    exact ⟨after, by simp only [evaluates, mapFailure, failed, Origin.reported_evaluation _ _ node position here]⟩
  | line engine node frame machine origin around _ ih =>
    obtain ⟨after, failed⟩ := ih
    exact ⟨after, by simp only [Engine.executeLine, mapFailure, failed, Origin.reported_line]⟩

-- A step of whose faults it can always be told where they come from.
def Traced {α : Type} (step : Exec α) : Prop := ∀ machine failure after, step machine = .failed failure after →
  failure = .missingFile ∨ ∃ origin around, step.Raises machine origin around

section Traced
variable {α β γ : Type} {step : Exec α}

theorem traced_small (small : step.Small) : step.Traced := by
  intro machine failure after ran
  obtain ⟨cause, rfl⟩ := small_fault small machine after failure ran
  exact .inr ⟨_, _, .small step small machine after cause ran⟩

theorem traced_bind (next : α → Exec β) (first : step.Traced) (later : ∀ value, (next value).Traced) :
    (step >>= next).Traced := by
  intro machine failure after ran
  cases began : step machine with
  | done value middle =>
    rw [bind_done step next machine middle value began] at ran
    exact (later value middle failure after ran).imp_right <| Exists.imp fun origin => Exists.imp fun around raises =>
      .next step next machine middle value origin around began raises
  | failed earlier middle =>
    cases (bind_failed step next machine middle earlier began).symm.trans ran
    exact (first machine failure after began).imp_right <| Exists.imp fun origin => Exists.imp fun around raises =>
      .first step next machine origin around raises
  | outOfFuel => cases (bind_exhausted step next machine began).symm.trans ran

-- A failure that is held back comes from where it came about, unless what is done meanwhile fails itself.
theorem traced_guard (cleanup : Except Failure α → Exec β) (next : β → Except Failure α → Exec γ)
    (reraises : ∀ result failure, next result (.error failure) = raise failure) (traced : step.Traced)
    (cleanups : ∀ outcome, (cleanup outcome).Traced) (laters : ∀ result value, (next result (.ok value)).Traced) :
    (step.attempt >>= fun outcome => cleanup outcome >>= fun result => next result outcome).Traced := by
  intro machine failure after ran
  have goesOn : ∀ outcome left, step.attempt machine = .done outcome left →
      (cleanup outcome >>= fun result => next result outcome) left = .failed failure after := fun outcome left attempted =>
    (bind_done _ _ machine left outcome attempted).symm.trans ran
  have later : ∀ outcome left, step.attempt machine = .done outcome left →
      (∃ origin around, (cleanup outcome >>= fun result => next result outcome).Raises left origin around) →
      ∃ origin around, (step.attempt >>= fun outcome => cleanup outcome >>= fun result => next result outcome).Raises machine
        origin around := fun outcome left attempted => Exists.imp fun origin => Exists.imp fun around raises =>
    .next _ _ machine left outcome origin around attempted raises
  cases began : step machine with
  | outOfFuel =>
    have attempted : step.attempt machine = .outOfFuel := by simp only [attempt, began]
    cases (bind_exhausted _ _ machine attempted).symm.trans ran
  | done value left =>
    have attempted : step.attempt machine = .done (.ok value) left := by simp only [attempt, began]
    have traces := traced_bind (fun result => next result (.ok value)) (cleanups (.ok value)) fun result =>
      laters result value
    exact (traces left failure after (goesOn _ left attempted)).imp_right (later _ left attempted)
  | failed held left =>
    have attempted : step.attempt machine = .done (.error held) left := by simp only [attempt, began]
    have rest := goesOn _ left attempted
    cases cleaned : cleanup (.error held) left with
    | outOfFuel => cases (bind_exhausted _ _ left cleaned).symm.trans rest
    | failed other middle =>
      cases (bind_failed _ _ left middle other cleaned).symm.trans rest
      refine (cleanups (.error held) left failure after cleaned).imp_right fun raised => later _ left attempted ?_
      exact raised.imp fun origin => Exists.imp fun around => .first _ _ left origin around
    | done result middle =>
      have raised := (bind_done _ _ left middle result cleaned).symm.trans rest
      rw [reraises] at raised
      cases raised
      exact (traced machine failure left began).imp_right <| Exists.imp fun origin => Exists.imp fun around =>
        .held step cleanup next reraises machine left after failure result origin around began cleaned

-- A step that never fails.
theorem traced_sure (sure : ∀ machine, ∃ value after, step machine = .done value after) : step.Traced := by
  intro machine failure after ran
  obtain ⟨_, _, done⟩ := sure machine
  cases done.symm.trans ran

theorem traced_modify (change : Machine → Machine) : (modify change).Traced :=
  traced_sure fun machine => ⟨(), change machine, rfl⟩

theorem traced_map_failure (outer : Exec α) (change : Failure → Failure) (around : Surrounding)
    (changes : outer = step.mapFailure change) (missing : change .missingFile = .missingFile)
    (raises : ∀ machine origin inner, step.Raises machine origin inner → outer.Raises machine origin (inner ++ [around]))
    (traced : step.Traced) : outer.Traced := by
  intro machine failure after ran
  rw [changes] at ran
  unfold mapFailure at ran
  split at ran
  next => cases ran
  next held middle began =>
    cases ran
    rcases traced machine held after began with rfl | ⟨origin, inner, raised⟩
    · exact .inl missing
    · exact .inr ⟨origin, _, raises machine origin inner raised⟩
  next => cases ran

theorem traced_load (rules : RuleSet) (source : String) (file : Option String) : (rules.load source file).Traced := by
  intro machine failure after ran
  rcases parsed : rules.parse source file with _ | (diagnostic | nodes)
  · simp only [RuleSet.load, parsed] at ran
    cases ran
  · have failed := ran
    simp only [RuleSet.load, parsed] at ran
    cases ran
    exact .inr ⟨_, _, .unreadable rules source file machine _ diagnostic failed⟩
  · simp only [RuleSet.load, parsed] at ran
    cases ran

end Traced

end Exec

def Trait.traced : Trait where
  Holds := Exec.Traced
  small := Exec.traced_small
  bind := Exec.traced_bind
  guard := Exec.traced_guard
  missing _ _ _ ran := .inl (by cases ran; rfl)
  failAt cause position machine _ _ _ := .inr ⟨_, _, .located cause position machine⟩
  misplaced engine function parameters frame binding argument rest cause refused machine _ _ _ :=
    .inr ⟨_, _, .argument engine function parameters frame binding argument rest machine cause refused⟩
  load := Exec.traced_load
  placed rules engine node frame step position here evaluates traced :=
    Exec.traced_map_failure _ _ (.evaluation node) evaluates rfl
      (fun machine origin around => .evaluation rules engine node frame step position here evaluates machine origin around)
      traced
  line engine node frame traced := Exec.traced_map_failure _ _ (.line node) rfl (by cases node.position? <;> rfl)
    (fun machine origin around => .line engine node frame machine origin around) traced
  enqueue _ _ := Exec.traced_modify _
  spawn := Exec.spawn_holds Exec.traced_small Exec.traced_bind fun _ => Exec.traced_modify _
  drain engine := engine.drain_holds Exec.Traced (fun view => Exec.traced_small (Exec.small_read view)) Exec.traced_bind
    fun _ => Exec.traced_modify _
  dropWork := Exec.traced_modify _
  register _ := Exec.traced_sure fun machine => ⟨_, _, rfl⟩
  remove _ := Exec.traced_sure fun machine => ⟨_, _, rfl⟩
  serve engine := engine.service_holds Exec.Traced (fun view => Exec.traced_small (Exec.small_read view)) Exec.traced_bind
    Exec.traced_guard (fun _ _ => Exec.traced_modify _) fun _ => Exec.traced_sure fun machine => ⟨_, _, rfl⟩
  dropEvents := Exec.traced_modify _

def Failure.tells (position : Position) (notes : List String) : Failure → Bool
  | .fault diagnostic => diagnostic.position == some position && diagnostic.notes.map Note.text == notes
  | .missingFile => false

end CoopScript
