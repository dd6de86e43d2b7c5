import CoopScript.Interpreter
import CoopScript.Proofs.Machine.Round
import CoopScript.Proofs.Value.Plain

/-!
Conducts: what is said of the steps that scripts take, or of the steps that two engines take side by side. All of a
conduct that depends on how scripts are run is in its smallest steps and in what is handed on from one to the next.
-/
set_option autoImplicit false
namespace CoopScript

-- Causes that neither tell of a run that cannot go on where it is nor of a task that is settled again.
def Cause.isOrdinary : Cause → Bool
  | settledTwice _ | neverSettled | depthExceeded .. => false
  | _ => true

-- What a step gives, with what it means that all values in it are good.
class Valued (α : Type) where
  All : (Value → Prop) → α → Prop
  mono : ∀ {good fine : Value → Prop} {content : α}, (∀ value, good value → fine value) → All good content → All fine content
  always : ∀ content : α, All (fun _ => True) content

namespace Valued

abbrev idle {α : Type} : Valued α := ⟨fun _ _ => True, fun _ _ => trivial, fun _ => trivial⟩

instance : Valued Unit := idle

instance : Valued Bool := idle

instance : Valued String := idle

instance : Valued Value := ⟨fun good value => good value, fun weaker good => weaker _ good, fun _ => trivial⟩

instance : Valued Bindings :=
  ⟨NameMap.All, fun weaker all entry listed => weaker _ (all entry listed), fun _ _ _ => trivial⟩

variable {α β : Type} [Valued α] [Valued β]

instance : Valued (Option α) :=
  ⟨fun good given => ∀ content, given = some content → All good content,
    fun weaker all content same => mono weaker (all content same), fun _ content _ => always content⟩

instance : Valued (List α) :=
  ⟨fun good items => ∀ item ∈ items, All good item, fun weaker all item listed => mono weaker (all item listed),
    fun _ item _ => always item⟩

instance : Valued (α ⊕ β) :=
  ⟨fun good => Sum.elim (All good) (All good), fun {_ _ content} weaker all => by
    cases content with
    | inl => exact mono weaker all
    | inr => exact mono weaker all, fun content => by
    cases content with
    | inl left => exact always left
    | inr right => exact always right⟩

end Valued

/-- A relation between steps of two engines, taken in some frame: from good values they make good values, in a world
that may have grown meanwhile. Native code is run only as far as it is admitted. -/
structure Conduct where
  World : Type
  Grows : World → World → Prop
  still : ∀ world, Grows world world
  grow : ∀ {first second third}, Grows first second → Grows second third → Grows first third
  Good : World → Value → Prop
  Admits : Native Value → Prop
  more : ∀ {world later value}, Grows world later → Good world value → Good later value
  member : ∀ {world value}, Good world value → ∀ name found, value.member? name = some found → Good world found
  items : ∀ {world value}, Good world value → ∀ items, value.items? = some items → ∀ item ∈ items, Good world item
  native : ∀ {world value}, Good world value → ∀ function code, value.function? = some function →
    function.body = .native code → Admits code
  hook : ∀ {world value}, Good world value → ∀ code, value.hidden? callHook = some (.hook (.behaviour code)) →
    Admits (.behaviour code)
  constant : ∀ {value}, Admits (.behaviour (.const value)) → ∀ world, Good world value
  Keeps : {α : Type} → [Valued α] → World → FrameId → Exec α → Exec α → Prop
  pure : ∀ {α : Type} [Valued α] {world frame} (value : α), Valued.All (Good world) value →
    Keeps world frame (Pure.pure value) (Pure.pure value)
  bind : ∀ {α β : Type} [Valued α] [Valued β] {world frame} {step twin : Exec α} (next later : α → Exec β),
    Keeps world frame step twin →
    (∀ more value, Grows world more → Valued.All (Good more) value → Keeps more frame (next value) (later value)) →
    Keeps world frame (step >>= next) (twin >>= later)
  exhausted : ∀ {α : Type} [Valued α] {world frame}, Keeps world frame (Exec.exhausted : Exec α) Exec.exhausted
  refuse : ∀ {α : Type} [Valued α] {world frame} (cause : Cause) (place : Option Position), cause.isOrdinary = true →
    Keeps world frame (Exec.raise (.fault ⟨cause, place, []⟩) : Exec α) (Exec.raise (.fault ⟨cause, place, []⟩))
  -- An argument that has no place among the parameters.
  misplaced : ∀ {world frame} (engine twin : Engine) (function : String) (parameters : Parameters) (binding : Binding)
    (argument : Node) (rest : List Node) (cause : Cause), binding.place function parameters argument = .error cause →
    Keeps world frame (engine.bindAll function parameters frame binding (argument :: rest))
      (twin.bindAll function parameters frame binding (argument :: rest))
  -- The value of a node that has a position.
  placed : ∀ {world frame} (rules : RuleSet) (engine twin : Engine) (node : Node) (step other : Exec Value)
    (position : Position), node.position? = some position →
    rules.evaluate engine node frame = step.mapFailure (·.orPosition (some position)) →
    rules.evaluate twin node frame = other.mapFailure (·.orPosition (some position)) → Keeps world frame step other →
    Keeps world frame (rules.evaluate engine node frame) (rules.evaluate twin node frame)
  -- The rest of a step, when it does not matter what has been looked up before.
  look : ∀ {α β : Type} [Valued β] {world frame} (view : ClassTable → TaskTable → α) (next later : α → Exec β),
    (∀ answer, Keeps world frame (next answer) (later answer)) →
    Keeps world frame ((Exec.read fun machine => view machine.classes machine.tasks) >>= next)
      ((Exec.read fun machine => view machine.classes machine.tasks) >>= later)
  scalar : ∀ {world frame} (content : Scalar), Keeps world frame (Exec.read (·.classes.scalar content))
    (Exec.read (·.classes.scalar content))
  array : ∀ {world frame} (items : List Value), (∀ item ∈ items, Good world item) →
    Keeps world frame (Exec.array items) (Exec.array items)
  lookUp : ∀ {world frame} (name : String), Keeps world frame (Exec.lookUp frame name) (Exec.lookUp frame name)
  assign : ∀ {world frame} (name : String) (value : Value), Good world value →
    Keeps world frame (Exec.assign frame name value) (Exec.assign frame name value)
  writeLine : ∀ {world frame} (text : String), Keeps world frame (Exec.writeLine text) (Exec.writeLine text)
  halt : ∀ {world frame}, Keeps world frame Exec.halt Exec.halt
  spawnBlocking : ∀ {world frame} (outcome : Scalar) (milliseconds : Nat),
    Keeps world frame (Exec.spawnBlocking (some outcome) milliseconds) (Exec.spawnBlocking (some outcome) milliseconds)
  spawnAsync : ∀ {world frame} (name : String) (lines : List Node) (arguments : Bindings), arguments.All (Good world) →
    Keeps world frame (Exec.spawnAsync name lines arguments frame) (Exec.spawnAsync name lines arguments frame)

theorem Native.behaviour_foreign (code : Behaviour Value) : ¬ ∃ builtin, Native.behaviour code = .builtin builtin := by
  rintro ⟨_, same⟩
  cases same

theorem Value.plain_call_foreign (value : Value) (plain : value.Plain) (code : Behaviour Value)
    (hook : value.hidden? callHook = some (.hook (.behaviour code))) :
    ∃ builtin, Native.behaviour code = .builtin builtin :=
  absurd hook (value.plain_hook plain callHook code)

theorem Value.constant_plain (value : Value) (admits : ∃ builtin, Native.behaviour (.const value) = .builtin builtin) :
    value.Plain :=
  absurd admits (Native.behaviour_foreign _)

-- An argument that has no place is told of at its own position, if it has one.
theorem Engine.bind_all_refused (engine : Engine) (function : String) (parameters : Parameters) (frame : FrameId)
    (binding : Binding) (argument : Node) (rest : List Node) (cause : Cause)
    (refused : binding.place function parameters argument = .error cause) :
    engine.bindAll function parameters frame binding (argument :: rest) =
      Exec.raise (.fault ⟨cause, argument.position?, []⟩) := by
  unfold bindAll
  rw [refused]
  cases argument.position? <;> rfl

theorem Binding.place_ordinary (binding : Binding) (function : String) (parameters : Parameters) (argument : Node)
    (cause : Cause) (refused : binding.place function parameters argument = .error cause) : cause.isOrdinary = true := by
  unfold place at refused
  grind [Cause.isOrdinary]

namespace Conduct
variable (conduct : Conduct) {α β σ : Type} [Valued α] {world : conduct.World} {frame : FrameId}

section Combinators

theorem fail (cause : Cause) (ordinary : cause.isOrdinary = true) :
    conduct.Keeps world frame (Exec.fail cause : Exec α) (Exec.fail cause) := conduct.refuse cause none ordinary

theorem failAt (cause : Cause) (position : Position) (ordinary : cause.isOrdinary = true) :
    conduct.Keeps world frame (Exec.failAt cause position : Exec α) (Exec.failAt cause position) :=
  conduct.refuse cause (some position) ordinary

-- Nothing comes after a failure.
theorem stop (cause : Cause) (next later : β → Exec α) (ordinary : cause.isOrdinary = true) :
    conduct.Keeps world frame ((Exec.fail cause : Exec β) >>= next) ((Exec.fail cause : Exec β) >>= later) :=
  conduct.fail cause ordinary

-- A failure whose message names the class of a value.
theorem fail_named (value : Value) (cause : String → Cause) (ordinary : ∀ name, (cause name).isOrdinary = true) :
    conduct.Keeps world frame (do Exec.fail (cause (← Exec.nameOf value)) : Exec α)
      (do Exec.fail (cause (← Exec.nameOf value))) :=
  conduct.look (fun classes _ => classes.nameOf value) _ _ fun name => conduct.fail (cause name) (ordinary name)

theorem fail_named_both (first second : Value) (cause : String → String → Cause)
    (ordinary : ∀ name later, (cause name later).isOrdinary = true) :
    conduct.Keeps world frame (do Exec.fail (cause (← Exec.nameOf first) (← Exec.nameOf second)) : Exec α)
      (do Exec.fail (cause (← Exec.nameOf first) (← Exec.nameOf second))) :=
  conduct.look (fun classes _ => classes.nameOf first) _ _ fun name => conduct.fail_named second (cause name) (ordinary name)

theorem iterate [Valued σ] (step twin : σ → Exec (σ ⊕ α))
    (keeps : ∀ more state, conduct.Keeps more frame (step state) (twin state)) (fuel : Nat) (state : σ) :
    conduct.Keeps world frame (Exec.iterate step fuel state) (Exec.iterate twin fuel state) := by
  induction fuel generalizing state world with
  | zero => exact conduct.exhausted
  | succ fuel ih =>
    rw [Exec.iterate_unrolled, Exec.iterate_unrolled]
    refine conduct.bind _ _ (keeps world state) fun more result _ good => ?_
    cases result with
    | inl next => exact ih next
    | inr value => exact conduct.pure value good

theorem collect (action twin : β → Exec α) (items : List β)
    (keeps : ∀ more, conduct.Grows world more → ∀ item ∈ items, conduct.Keeps more frame (action item) (twin item)) :
    conduct.Keeps world frame (Exec.collect action items) (Exec.collect twin items) := by
  induction items generalizing world with
  | nil => exact conduct.pure [] fun _ listed => by cases listed
  | cons first rest ih =>
    refine conduct.bind _ _ (keeps world (conduct.still world) first List.mem_cons_self) fun more value grown good => ?_
    refine conduct.bind _ _ (ih fun most further item listed =>
      keeps most (conduct.grow grown further) item (List.mem_cons_of_mem first listed)) fun most values further all => ?_
    have kept := Valued.mono (fun _ => conduct.more further) good
    exact conduct.pure (value :: values) (List.forall_mem_cons.mpr ⟨kept, all⟩)

end Combinators

section Values

theorem void : conduct.Keeps world frame Exec.void Exec.void := conduct.scalar .void

theorem number (x : Float) : conduct.Keeps world frame (Exec.number x) (Exec.number x) := conduct.scalar (.number x)

theorem text (content : String) : conduct.Keeps world frame (Exec.text content) (Exec.text content) :=
  conduct.scalar (.text content)

theorem flag (truth : Bool) : conduct.Keeps world frame (Exec.flag truth) (Exec.flag truth) := conduct.scalar (.flag truth)

variable {value : Value} (good : conduct.Good world value)

theorem data_items {items : List Value} {identity : Nat} (shape : value.data = .array identity items)
    (good : conduct.Good world value) : ∀ item ∈ items, conduct.Good world item :=
  conduct.items good items (by rw [Value.items?, shape])

include good

theorem member_of (name : String) :
    conduct.Keeps world frame (Exec.memberOf value name) (Exec.memberOf value name) := by
  unfold Exec.memberOf
  cases found : value.member? name with
  | some member => exact conduct.pure member (conduct.member good name member found)
  | none => exact conduct.fail_named value (.missingMember · name) fun _ => rfl

theorem item_at (place : Value) : conduct.Keeps world frame (Exec.itemAt value place) (Exec.itemAt value place) := by
  unfold Exec.itemAt
  cases place.number? with
  | none => exact conduct.fail_named place .indexNotNumber fun _ => rfl
  | some position =>
    simp only
    cases shape : value.data with
    | array identity items =>
      simp only
      cases found : (Number.natural? position).bind (items[·]?) with
      | some item =>
        obtain ⟨slot, _, read⟩ := Option.bind_eq_some_iff.mp found
        exact conduct.pure item (conduct.data_items shape good item (List.mem_of_getElem? read))
      | none => exact conduct.fail (.outOfBounds position _) rfl
    | text content =>
      simp only
      cases (Number.natural? position).bind (content.toList[·]?) with
      | some c => exact conduct.text _
      | none => exact conduct.fail (.outOfBounds position _) rfl
    | _ => exact conduct.fail_named value .notIndexable fun _ => rfl

variable {other : Value} (otherGood : conduct.Good world other)
include otherGood

theorem on_data (op : BinaryOp) (result : Exec Value) (computed : Exec.onData op value.data other.data = some result) :
    conduct.Keeps world frame result result := by
  unfold Exec.onData at computed
  split at computed
  next =>
    unfold Exec.onNumbers at computed
    split at computed <;> cases computed
    · exact conduct.number _
    · exact conduct.flag _
  next =>
    unfold Exec.onTexts at computed
    split at computed <;> cases computed
    · exact conduct.text _
    · exact conduct.flag _
  next shape otherShape =>
    split at computed <;> cases computed
    exact conduct.array _ (List.forall_mem_append.mpr ⟨conduct.data_items shape good, conduct.data_items otherShape otherGood⟩)
  next => cases computed

theorem operate (op : BinaryOp) :
    conduct.Keeps world frame (Exec.operate op value other) (Exec.operate op value other) := by
  unfold Exec.operate
  split
  · exact conduct.flag _
  · exact conduct.flag _
  · cases computed : Exec.onData op value.data other.data with
    | some result => exact conduct.on_data good otherGood op result computed
    | none => exact conduct.fail_named_both value other (.unsupportedOperands op.symbol) fun _ _ => rfl

end Values

end Conduct
end CoopScript
