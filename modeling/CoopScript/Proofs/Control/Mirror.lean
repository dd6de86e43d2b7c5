import CoopScript.Interpreter
import CoopScript.Proofs.Control.Result
import CoopScript.Proofs.Stage.Tied

set_option autoImplicit false
namespace CoopScript

inductive Signal where
  | normal (last : Option Value)
  | returned (value : Value)
  | halted

namespace Signal

def result? : Signal → Option Value
  | .returned value => some value
  | .normal _ | .halted => none

def ofResult : Option Value → Signal
  | some value => .returned value
  | none => .normal none

-- A line without a value leaves the last one as it was.
def after (last : Option Value) : Signal → Signal
  | .normal none => .normal last
  | signal => signal

-- Statements that contain lines have no value of their own.
def silent : Signal → Signal
  | .normal _ => .normal none
  | signal => signal

end Signal

-- Structured execution with some fuel left: of single lines, and of expressions, which call functions.
structure Structured where
  engine : Engine
  line : Node → FrameId → Exec Signal

namespace Structured

def lineStep (inner : Structured) (frame : FrameId) :
    Signal × List Node → Exec ((Signal × List Node) ⊕ Signal)
  | (.normal last, nodes) => do
    if ← Exec.isHalted then return .inr .halted
    match nodes with
    | [] => return .inr (.normal last)
    | node :: rest => return .inl ((← inner.line node frame).after last, rest)
  | (signal, _) => pure (.inr signal)

-- A list of lines stops at the first that does not end normally.
def lines (inner : Structured) (frame : FrameId) (start : Signal) (nodes : List Node) : Exec Signal :=
  Exec.iterate (inner.lineStep frame) inner.engine.fuel (start, nodes)

-- A block holds its frame until it is over, and it takes a moment to begin one.
def block (inner : Structured) (start : Signal) (nodes : List Node) (frame : FrameId) : Exec Signal := do
  Exec.retainFrame frame
  Exec.modify (·.pass Machine.blockTime)
  let outcome ← (inner.lines frame start nodes).attempt
  Exec.releaseFrame frame
  Exec.ofOutcome outcome

def loopStep (inner : Structured) (condition : Node) (body : List Node) (frame : FrameId) :
    Signal → Exec (Signal ⊕ Signal)
  | .normal _ => do
    if ← Exec.isHalted then return .inr .halted
    let value ← inner.engine.evaluate condition frame
    if !(← inner.engine.truthy value frame) then return .inr (.normal none)
    return .inl (← inner.block (.normal none) body frame)
  | signal => pure (.inr signal)

def loop (inner : Structured) (condition : Node) (body : List Node) (frame : FrameId) : Exec Signal :=
  Exec.iterate (inner.loopStep condition body frame) inner.engine.fuel (.normal none)

def statement (inner : Structured) (node : Node) (frame : FrameId) : Exec Signal :=
  match node with
  | .giveBack "return" _ (some value) => do return .returned (← inner.engine.evaluate value frame)
  | .giveBack "return" _ none => do return .returned (← Exec.void)
  | .branch "if" _ condition whenTrue whenFalse => do
    let value ← inner.engine.evaluate condition frame
    if ← inner.engine.truthy value frame then
      return (← inner.block (.normal none) whenTrue frame).silent
    match whenFalse with
    | some nodes => return (← inner.block (.normal none) nodes frame).silent
    | none => return .normal none
  | .loop "while" _ condition body => inner.loop condition body frame
  | .block "block" _ body => do return (← inner.block (.normal none) body frame).silent
  | other => do return .normal (← RuleSet.standard.execute inner.engine other frame)

-- The lines of a function are run unless their frame has got a result from somewhere else before.
def body (inner : Structured) (nodes : List Node) (frame : FrameId) : Exec (Option Value) := do
  let before ← Exec.takeReturn frame
  return (← inner.block (.ofResult before) nodes frame).result?

def ofFuel : Nat → Structured
  | 0 => ⟨.exhausted, fun _ _ => Exec.exhausted⟩
  | fuel + 1 =>
    let inner := ofFuel fuel
    { engine :=
        { fuel := fuel + 1
          parse := fun source => RuleSet.standard.load source none
          evaluate := fun node frame => RuleSet.standard.evaluate inner.engine node frame
          execute := fun node frame => RuleSet.standard.execute inner.engine node frame
          native := fun code invocation => inner.engine.runNative code invocation
          perform := fun action => inner.engine.performAction action
          body := fun nodes frame => inner.body nodes frame }
      line := fun node frame => (inner.statement node frame).mapFailure (Engine.trace node) }

end Structured

namespace Machine

def cleared (machine : Machine) (frame : FrameId) : Machine :=
  { machine with frames := machine.frames.cleared frame }

structure Meets (machine : Machine) (frame : FrameId) (signal : Signal) (twin : Machine) : Prop where
  result : machine.frames.result? frame = signal.result?
  halted : signal = .halted → machine.halted = true
  twins : (machine.cleared frame).Twin twin

theorem cleared_blank (machine : Machine) (frame : FrameId) (blank : machine.frames.result? frame = none) :
    machine.cleared frame = machine := by
  unfold cleared
  rw [machine.frames.cleared_blank frame blank]

theorem meets_blank (machine twin : Machine) (frame : FrameId) (last : Option Value)
    (blank : machine.frames.hasReturned frame = false) (twins : machine.Twin twin) :
    machine.Meets frame (.normal last) twin := by
  have none_there : machine.frames.result? frame = none := by
    rw [Arena.returned_result] at blank
    exact Option.isNone_iff_eq_none.mp (by simpa using blank)
  refine ⟨none_there, fun same => (nomatch same), ?_⟩
  rw [machine.cleared_blank frame none_there]
  exact twins

theorem meets_normal (machine twin : Machine) (frame : FrameId) (last : Option Value)
    (meets : machine.Meets frame (.normal last) twin) :
    machine.frames.hasReturned frame = false ∧ machine.Twin twin := by
  have none_there : machine.frames.result? frame = none := meets.result
  refine ⟨?_, machine.cleared_blank frame none_there ▸ meets.twins⟩
  rw [Arena.returned_result, none_there]
  rfl

theorem meets_halted (machine twin : Machine) (frame : FrameId) (signal : Signal)
    (meets : machine.Meets frame signal twin) : twin.halted = machine.halted := by
  obtain ⟨runners, count, rfl⟩ := meets.twins
  rfl

-- Signals that agree on the result can stand for one another.
theorem meets_signal (machine twin : Machine) (frame : FrameId) (signal other : Signal)
    (meets : machine.Meets frame signal twin) (result : other.result? = signal.result?)
    (halted : other = .halted → signal = .halted) : machine.Meets frame other twin :=
  ⟨meets.result.trans result.symm, fun same => meets.halted (halted same), meets.twins⟩

-- Twins do not tell runners apart.
theorem meets_runners (machine twin : Machine) (frame : FrameId) (signal : Signal)
    (runners : List (RunnerId × Runner)) (count : Nat) (meets : machine.Meets frame signal twin) :
    (machine.enlisted runners count).Meets frame signal twin := by
  obtain ⟨others, number, rfl⟩ := meets.twins
  exact ⟨meets.result, meets.halted, others, number, rfl⟩

end Machine

namespace Stage

-- Runs of a frame's lines leave what is in progress as it was, but for the result of the frame itself.
structure Spares (stage : Stage) (frame : FrameId) (after : Machine) : Prop where
  results : ∀ id ∈ stage.firm, id ≠ frame → stage.machine.frames.hasReturned id = false →
    after.frames.hasReturned id = false
  runners : ∀ id runner, stage.machine.runner? id = some runner → after.runner? id = some runner

theorem spares_here (stage : Stage) (frame : FrameId) : stage.Spares frame stage.machine :=
  ⟨fun _ _ _ none => none, fun _ _ known => known⟩

theorem spares_keeps (stage : Stage) (frame : FrameId) (after : Machine) (keeps : stage.Keeps after) :
    stage.Spares frame after :=
  ⟨fun id member _ none => keeps.results id member none, keeps.runners⟩

theorem spares_trans (stage inner : Stage) (frame : FrameId) (after : Machine)
    (firm : ∀ id ∈ stage.firm, id ∈ inner.firm) (first : stage.Spares frame inner.machine)
    (second : inner.Spares frame after) : stage.Spares frame after :=
  ⟨fun id member elsewhere none =>
      second.results id (firm id member) elsewhere (first.results id member elsewhere none),
    fun id runner known => second.runners id runner (first.runners id runner known)⟩

theorem keeps_spares (stage : Stage) (frame : FrameId) (after : Machine) (spares : stage.Spares frame after)
    (blank : after.frames.hasReturned frame = false) : stage.Keeps after := by
  refine ⟨fun id member none => ?_, spares.runners⟩
  by_cases same : id = frame
  · rw [same]
    exact blank
  · exact spares.results id member same none

-- `fits` relates an answer, together with the machine it comes from, to the signal.
inductive Mirrors {α : Type} (stage : Stage) (frame : FrameId) (fits : α → Machine → Signal → Prop) :
    Outcome α → Outcome Signal → Prop where
  | done (value : α) (machine : Machine) (signal : Signal) (twin : Machine) (fit : fits value machine signal)
      (meets : machine.Meets frame signal twin) (spares : stage.Spares frame machine) :
      Mirrors stage frame fits (.done value machine) (.done signal twin)
  | failed (failure : Failure) (machine twin : Machine) (meets : machine.Meets frame (.normal none) twin)
      (spares : stage.Spares frame machine) :
      Mirrors stage frame fits (.failed failure machine) (.failed failure twin)
  | outOfFuel : Mirrors stage frame fits .outOfFuel .outOfFuel

theorem mirrors_within {α : Type} (stage inner : Stage) (frame : FrameId) (fits : α → Machine → Signal → Prop)
    (left : Outcome α) (right : Outcome Signal) (firm : ∀ id ∈ stage.firm, id ∈ inner.firm)
    (spares : stage.Spares frame inner.machine) (mirrors : inner.Mirrors frame fits left right) :
    stage.Mirrors frame fits left right := by
  cases mirrors with
  | done value machine signal twin fit meets later =>
    exact .done value machine signal twin fit meets (spares_trans stage inner frame machine firm spares later)
  | failed failure machine twin meets later =>
    exact .failed failure machine twin meets (spares_trans stage inner frame machine firm spares later)
  | outOfFuel => exact .outOfFuel

-- The stage of a function's run: the frame is the function's own, and somebody holds it.
structure Inside (stage : Stage) (frame : FrameId) : Prop where
  sound : stage.Sound
  member : frame ∈ stage.firm
  function : stage.machine.frames.OfFunction frame

theorem inside_found (stage : Stage) (frame : FrameId) (inside : stage.Inside frame) :
    ∃ content, stage.machine.frames.frame? frame = some content ∧ content.isFunction = true := by
  obtain ⟨content, found⟩ :=
    (Arena.live_found _ frame).mp (firm_live stage inside.sound frame inside.member)
  exact ⟨content, found, inside.function content found⟩

theorem inside_reaches {α : Type} (stage : Stage) (frame : FrameId) (step : Exec α) (machine : Machine)
    (inside : stage.Inside frame) (reaches : stage.Reaches step machine) : (stage.put machine).Inside frame := by
  have sound := reaches_sound stage step machine inside.sound reaches
  refine ⟨sound, (firm_put stage machine reaches.registered frame).mpr inside.member, fun later found => ?_⟩
  obtain ⟨content, known, function⟩ := inside_found stage frame inside
  obtain ⟨_, steady⟩ := leads_steady stage stage (stage.put machine) inside.sound (within_refl stage) reaches.leads
  have live := firm_live stage inside.sound frame inside.member
  obtain ⟨_, kind⟩ := steady.same frame inside.member frame (.self live) content later known found
  exact kind.trans function

end Stage

namespace Exec
variable {α β : Type}

theorem mirrors_bind (base stage : Stage) (frame : FrameId) (firm : ∀ id ∈ base.firm, id ∈ stage.firm)
    (begun : base.Spares frame stage.machine) (good : α → Prop) (fits : α → Machine → Signal → Prop)
    (fine : β → Machine → Signal → Prop) (step : Exec α) (other : Exec Signal) (next : α → Exec β)
    (later : Signal → Exec Signal) (machine : Machine) (follows : stage.Follows good step)
    (mirrors : stage.Mirrors frame fits (step stage.machine) (other machine))
    (further : ∀ value after signal twin, stage.Reaches step after → fits value after signal →
      after.Meets frame signal twin → stage.Spares frame after →
      base.Mirrors frame fine (next value after) (later signal twin)) :
    base.Mirrors frame fine ((step >>= next) stage.machine) ((other >>= later) machine) := by
  generalize ran : step stage.machine = left at mirrors
  generalize ranOther : other machine = right at mirrors
  cases mirrors with
  | done value after signal twin fit meets spares =>
    rw [bind_done step next _ _ value ran, bind_done other later _ _ signal ranOther]
    rcases follows_cases stage good step follows with ⟨_, _, done, reaches, _⟩ | ⟨_, _, failed, _⟩ | exhausted
    · rw [ran] at done
      cases done
      exact further value after signal twin reaches fit meets spares
    · rw [ran] at failed
      cases failed
    · rw [ran] at exhausted
      cases exhausted
  | failed failure after twin meets spares =>
    rw [bind_failed step next _ _ failure ran, bind_failed other later _ _ failure ranOther]
    exact .failed failure after twin meets (Stage.spares_trans base stage frame after firm begun spares)
  | outOfFuel =>
    rw [bind_exhausted step next _ ran, bind_exhausted other later _ ranOther]
    exact .outOfFuel

-- Steps that agree go before steps that mirror one another.
theorem mirrors_after (stage : Stage) (frame : FrameId) (inside : stage.Inside frame) (last : Option Value)
    (machine : Machine) (meets : stage.machine.Meets frame (.normal last) machine) (good : α → Prop)
    (fine : β → Machine → Signal → Prop) (step other : Exec α) (next : α → Exec β) (later : α → Exec Signal)
    (tied : step.Tied True other good)
    (further : ∀ value after twin, good value → (stage.put after).Inside frame →
      after.Meets frame (.normal none) twin →
      (stage.put after).Mirrors frame fine (next value after) (later value twin)) :
    stage.Mirrors frame fine ((step >>= next) stage.machine) ((other >>= later) machine) := by
  obtain ⟨blank, twins⟩ := Machine.meets_normal _ machine frame last meets
  have follows := tied.lawful stage inside.sound
  have agrees := tied.agree trivial stage machine inside.sound twins
  generalize ran : step stage.machine = left at agrees
  generalize ranOther : other machine = right at agrees
  cases agrees with
  | done value after twin twinsAfter keeps =>
    rw [bind_done step next _ _ value ran, bind_done other later _ _ value ranOther]
    rcases follows_cases stage good step follows with ⟨_, _, done, reaches, fine⟩ | ⟨_, _, failed, _⟩ | exhausted
    · rw [ran] at done
      cases done
      have blankAfter := keeps.results frame inside.member blank
      exact Stage.mirrors_within stage (stage.put after) frame _ _ _
        (fun id => (Stage.firm_put stage after reaches.registered id).mpr)
        (Stage.spares_keeps stage frame after keeps)
        (further value after twin fine (Stage.inside_reaches stage frame step after inside reaches)
          (Machine.meets_blank after twin frame none blankAfter twinsAfter))
    · rw [ran] at failed
      cases failed
    · rw [ran] at exhausted
      cases exhausted
  | failed failure after twin twinsAfter keeps =>
    rw [bind_failed step next _ _ failure ran, bind_failed other later _ _ failure ranOther]
    exact .failed failure after twin
      (Machine.meets_blank after twin frame none (keeps.results frame inside.member blank) twinsAfter)
      (Stage.spares_keeps stage frame after keeps)
  | outOfFuel =>
    rw [bind_exhausted step next _ ran, bind_exhausted other later _ ranOther]
    exact .outOfFuel

theorem mirrors_map_failure (stage : Stage) (frame : FrameId) (fits : α → Machine → Signal → Prop)
    (change : Failure → Failure) (step : Exec α) (other : Exec Signal) (machine : Machine)
    (mirrors : stage.Mirrors frame fits (step stage.machine) (other machine)) :
    stage.Mirrors frame fits (step.mapFailure change stage.machine) (other.mapFailure change machine) := by
  unfold mapFailure
  generalize step stage.machine = left at mirrors ⊢
  generalize other machine = right at mirrors ⊢
  cases mirrors with
  | done value after signal twin fit meets spares => exact .done value after signal twin fit meets spares
  | failed failure after twin meets spares => exact .failed (change failure) after twin meets spares
  | outOfFuel => exact .outOfFuel

end Exec

end CoopScript
