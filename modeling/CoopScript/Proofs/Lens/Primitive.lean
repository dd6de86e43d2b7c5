import CoopScript.Machine.Scheduler
import CoopScript.Rule.Operation
import CoopScript.Proofs.Lens.Fits

set_option autoImplicit false
namespace CoopScript.Exec
variable {α β : Type} {lens : Lens} {given : Option Bound → Prop}

section Frames

theorem through_update (change other : Arena → Except Cause Arena)
    (natural : ∀ arena : Arena, other (lens.arena arena) = (change arena).map lens.arena)
    (fits : ∀ (bound : Option Bound) (arena after : Arena), given bound → arena.Fits bound → change arena = .ok after →
      after.Fits bound) : (updateFrames change).Through lens given (updateFrames other) id fun _ _ => True := by
  refine through_natural _ _ (fun machine early late _ _ _ => ?_) fun bound machine fine fit => ?_
  · have seen : other ((lens.machine machine).pass late).frames = (change machine.frames).map lens.arena := natural machine.frames
    have here : (machine.pass early).frames = machine.frames := rfl
    unfold updateFrames
    rw [seen, here]
    cases change machine.frames <;> exact ⟨rfl, rfl⟩
  · unfold updateFrames
    split
    next frames done =>
      exact ⟨machine.fits_frames fit frames (fits bound machine.frames frames fine fit.frames done), .same rfl fun _ => rfl, trivial⟩
    next => exact ⟨fit, .same rfl fun _ => rfl⟩

theorem through_ask (ask : Arena → Except Cause α) (other : Arena → Except Cause β) (see : α → β)
    (good : Option Bound → α → Prop) (natural : ∀ arena : Arena, other (lens.arena arena) = (ask arena).map see)
    (fits : ∀ (bound : Option Bound) (arena : Arena) (answer : α), given bound → arena.Fits bound → ask arena = .ok answer →
      good bound answer) : (askFrames ask).Through lens given (askFrames other) see good := by
  refine through_natural _ _ (fun machine early late _ _ _ => ?_) fun bound machine fine fit => ?_
  · have seen : other ((lens.machine machine).pass late).frames = (ask machine.frames).map see := natural machine.frames
    have here : (machine.pass early).frames = machine.frames := rfl
    unfold askFrames
    rw [seen, here]
    cases ask machine.frames <;> exact ⟨rfl, rfl⟩
  · unfold askFrames
    split
    next answer done => exact ⟨fit, .same rfl fun _ => rfl, fits bound machine.frames answer fine fit.frames done⟩
    next => exact ⟨fit, .same rfl fun _ => rfl⟩

theorem through_change (change : Arena → Except Cause (α × Arena)) (other : Arena → Except Cause (β × Arena)) (see : α → β)
    (good : Option Bound → α → Prop)
    (natural : ∀ arena : Arena, other (lens.arena arena) = (change arena).map fun done => (see done.1, lens.arena done.2))
    (fits : ∀ (bound : Option Bound) (arena after : Arena) (answer : α), given bound → arena.Fits bound →
      change arena = .ok (answer, after) → good bound answer ∧ after.Fits bound) :
    (changeFrames change).Through lens given (changeFrames other) see good := by
  refine through_natural _ _ (fun machine early late _ _ _ => ?_) fun bound machine fine fit => ?_
  · have seen : other ((lens.machine machine).pass late).frames =
        (change machine.frames).map fun done => (see done.1, lens.arena done.2) := natural machine.frames
    have here : (machine.pass early).frames = machine.frames := rfl
    unfold changeFrames
    rw [seen, here]
    cases change machine.frames <;> exact ⟨rfl, rfl⟩
  · unfold changeFrames
    split
    next answer frames done =>
      have both := fits bound machine.frames frames answer fine fit.frames done
      exact ⟨machine.fits_frames fit frames both.2, .same rfl fun _ => rfl, both.1⟩
    next => exact ⟨fit, .same rfl fun _ => rfl⟩

variable (frame : FrameId)

theorem through_retain_frame : (retainFrame frame).Through lens given (retainFrame frame) id fun _ _ => True :=
  through_update _ _ (fun arena => lens.retain_arena arena frame) fun _ _ _ _ fit done => Arena.fits_retain fit frame done

theorem through_release_frame : (releaseFrame frame).Through lens given (releaseFrame frame) id fun _ _ => True := by
  refine through_natural _ _ (fun machine early late _ _ _ => ?_) fun bound machine _ fit => ?_
  · have seen := lens.release_arena machine.frames frame
    rw [show lens.arena machine.frames = ((lens.machine machine).pass late).frames from rfl] at seen
    have here : (machine.pass early).frames = machine.frames := rfl
    unfold releaseFrame
    rw [seen, here]
    cases machine.frames.release frame with
    | mk frames fault => cases fault <;> exact ⟨rfl, rfl⟩
  · have released := Arena.fits_release fit.frames frame
    unfold releaseFrame
    split
    next frames done =>
      rw [done] at released
      exact ⟨machine.fits_frames fit frames released, .same rfl fun _ => rfl, trivial⟩
    next frames cause done =>
      rw [done] at released
      exact ⟨machine.fits_frames fit frames released, .same rfl fun _ => rfl⟩

theorem through_push_frame (isFunction : Bool) (bindings : Bindings) (fine : ∀ bound, given bound → bindings.Fits bound) :
    (pushFrame frame isFunction bindings).Through lens given (pushFrame frame isFunction (lens.bindings bindings)) id
      fun _ _ => True :=
  through_change _ _ id _ (fun arena => lens.push_arena arena frame isFunction bindings)
    fun bound _ _ id plain fit done => ⟨trivial, Arena.fits_push fit frame id isFunction bindings (fine bound plain) done⟩

theorem through_look_up (name : String) :
    (lookUp frame name).Through lens given (lookUp frame name) lens.value Value.Fits :=
  through_ask _ _ lens.value _ (fun arena => lens.look_up_arena arena frame name)
    fun _ _ value _ fit done => Arena.fits_look_up fit frame name value done

theorem through_set_variable (name : String) (value : Value) (fine : ∀ bound, given bound → value.Fits bound) :
    (setVariable frame name value).Through lens given (setVariable frame name (lens.value value)) id fun _ _ => True :=
  through_update _ _ (fun arena => lens.set_variable_arena arena frame name value)
    fun bound _ _ plain fit done => Arena.fits_set_variable fit frame name value (fine bound plain) done

theorem through_assign (name : String) (value : Value) (fine : ∀ bound, given bound → value.Fits bound) :
    (assign frame name value).Through lens given (assign frame name (lens.value value)) id fun _ _ => True :=
  through_update _ _ (fun arena => lens.assign_arena arena frame name value)
    fun bound _ _ plain fit done => Arena.fits_assign fit frame name value (fine bound plain) done

theorem through_set_return (value : Value) (fine : ∀ bound, given bound → value.Fits bound) :
    (setReturn frame value).Through lens given (setReturn frame (lens.value value)) id fun _ _ => True :=
  through_update _ _ (fun arena => lens.set_return_arena arena frame value)
    fun bound _ _ plain fit done => Arena.fits_set_return fit frame value (fine bound plain) done

theorem through_take_return :
    (takeReturn frame).Through lens given (takeReturn frame) (Option.map lens.value) GivenFits :=
  through_change _ _ _ _ (fun arena => lens.take_return_arena arena frame)
    fun _ _ _ value _ fit done => Arena.fits_take_return fit frame value done

theorem through_function_frame : (askFrames (·.functionFrame frame)).Through lens given (askFrames (·.functionFrame frame)) id
    fun _ _ => True :=
  through_ask _ _ id _ (fun arena => by rw [lens.function_frame_arena]; cases arena.functionFrame frame <;> rfl)
    fun _ _ _ _ _ _ => trivial

theorem through_is_unwinding : (isUnwinding frame).Through lens given (isUnwinding frame) id fun _ _ => True := by
  refine through_bind (through_look _ fun _ _ _ => rfl) fun halted => ?_
  cases halted with
  | true => exact through_pure true true rfl fun _ _ => trivial
  | false =>
    refine through_bind (through_given (through_function_frame frame) fun _ both => both.1) fun function => ?_
    cases function with
    | none => exact through_pure false false rfl fun _ _ => trivial
    | some function => exact through_look _ fun machine _ _ => lens.has_returned_arena machine.frames function

end Frames

section Values

theorem through_class_value (build other : ClassTable → Value)
    (natural : given lens.bound → ∀ table : ClassTable, other (lens.classes table) = lens.value (build table))
    (fits : ∀ (bound : Option Bound) (machine : Machine), given bound → machine.Fits bound →
      (build machine.classes).Fits bound) :
    (read fun machine => build machine.classes).Through lens given (read fun machine => other machine.classes) lens.value
      Value.Fits :=
  through_read _ _ (fun machine _ _ fine _ _ => natural fine machine.classes) fits

theorem through_scalar (scalar : Scalar) : (read (·.classes.scalar scalar)).Through lens given
    (read (·.classes.scalar scalar)) lens.value Value.Fits :=
  through_class_value (·.scalar scalar) (·.scalar scalar) (fun _ table => lens.scalar_classes table scalar)
    fun _ machine _ fit => machine.fits_scalar fit scalar

theorem through_void : void.Through lens given void lens.value Value.Fits := through_scalar .void

theorem through_number (x : Float) : (number x).Through lens given (number x) lens.value Value.Fits :=
  through_scalar (.number x)

theorem through_text (content : String) : (text content).Through lens given (text content) lens.value Value.Fits :=
  through_scalar (.text content)

theorem through_flag (truth : Bool) : (flag truth).Through lens given (flag truth) lens.value Value.Fits :=
  through_scalar (.flag truth)

theorem through_next_identity : nextIdentity.Through lens given nextIdentity id fun bound identity =>
    ∀ few, bound = some few → few.named ≤ identity := by
  refine through_natural _ _ (fun _ _ _ _ _ _ => ⟨rfl, rfl⟩) fun bound machine _ fit => ?_
  refine ⟨machine.fits_same fit _ rfl rfl rfl rfl rfl (Nat.le_succ _), .same rfl fun _ => rfl, ?_⟩
  rintro few rfl
  exact fit.suits.2.2.2

theorem through_array (items : List Value) (fine : ∀ bound, given bound → ∀ item ∈ items, item.Fits bound) :
    (array items).Through lens given (array (items.map lens.value)) lens.value Value.Fits := by
  refine through_bind through_next_identity fun identity => ?_
  refine through_class_value (·.array identity items) (·.array identity (items.map lens.value)) (fun _ table => lens.array_classes table identity items) ?_
  exact fun bound machine both fit => machine.fits_instantiate fit _ _ (Data.fits_array identity items (fine bound both.1))

theorem through_name_of (value : Value) : (nameOf value).Through lens given (nameOf (lens.value value)) id fun _ _ => True :=
  through_read _ _ (fun machine _ _ _ _ _ => lens.name_of_classes machine.classes value) fun _ _ _ _ => trivial

theorem through_is_function (value : Value) : (read (·.classes.isFunction value)).Through lens given
    (read (·.classes.isFunction (lens.value value))) id fun _ _ => True :=
  through_read _ _ (fun machine _ _ _ _ _ => lens.is_function_classes machine.classes value) fun _ _ _ _ => trivial

theorem through_function (content other : Function Value) (same : other = lens.function false content)
    (ordinary : ∀ bound, given bound → content.Ordinary) :
    (function content).Through lens given (function other) lens.value Value.Fits := by
  subst same
  refine through_bind through_next_identity fun identity => ?_
  refine through_class_value (·.function identity content) (·.function identity (lens.function false content)) ?_
    fun bound machine both fit => machine.fits_instantiate fit _ _ (Data.fits_function identity content (ordinary bound both.1))
  intro both table
  have heard : lens.deaf identity = false := by
    cases unheard : lens.deaf identity with
    | false => rfl
    | true =>
      obtain ⟨few, bounded, old⟩ := lens.hears identity unheard
      exact absurd (both.2 few bounded) (Nat.not_le.mpr old)
  have seen := lens.instantiate_classes table .function (.function identity content)
  simp only [Lens.data, heard] at seen
  exact seen

theorem through_member_of (object : Value) (name : String) (fine : ∀ bound, given bound → object.Fits bound) :
    (memberOf object name).Through lens given (memberOf (lens.value object) name) lens.value Value.Fits := by
  unfold memberOf
  rw [lens.member_value]
  cases found : object.member? name with
  | some member => exact through_pure member _ rfl fun bound plain => Value.fits_member (fine bound plain) name member found
  | none => exact through_bind (through_name_of object) fun className => through_fail _

theorem through_item_at (object place : Value) (fine : ∀ bound, given bound → object.Fits bound) :
    (itemAt object place).Through lens given (itemAt (lens.value object) (lens.value place)) lens.value Value.Fits := by
  unfold itemAt
  rw [lens.number_value, lens.data_value]
  cases place.number? with
  | none => exact through_bind (through_name_of place) fun className => through_fail _
  | some position =>
    cases data : object.data with
    | array identity items =>
      simp only [Lens.data, Lens.items_map, List.getElem?_map, List.length_map]
      cases slot : Number.natural? position with
      | none => exact through_fail _
      | some index =>
        simp only [Option.bind_some]
        cases found : items[index]? with
        | none => exact through_fail _
        | some item =>
          refine through_pure item _ rfl fun bound plain => ?_
          exact Value.fits_array (fine bound plain) identity items data item (List.mem_of_getElem? found)
    | text content =>
      simp only [Lens.data]
      cases (Number.natural? position).bind (content.toList[·]?) with
      | none => exact through_fail _
      | some letter => exact through_text _
    | function identity content => exact through_bind (through_name_of object) fun className => through_fail _
    | none | void | number _ | flag _ | promise _ =>
      exact through_bind (through_name_of object) fun className => through_fail _

theorem through_on_data (op : BinaryOp) (left right : Value) (leftFine : ∀ bound, given bound → left.Fits bound)
    (rightFine : ∀ bound, given bound → right.Fits bound) :
    (onData op left.data right.data = none ∧ onData op (lens.data left.data) (lens.data right.data) = none) ∨
      ∃ step twin, onData op left.data right.data = some step ∧
        onData op (lens.data left.data) (lens.data right.data) = some twin ∧
        step.Through lens given twin lens.value Value.Fits := by
  cases leftData : left.data with
  | number x =>
    cases right.data with
    | number y =>
      simp only [Lens.data, onData, onNumbers]
      cases op.arithmetic? with
      | some compute => exact .inr ⟨_, _, rfl, rfl, through_number _⟩
      | none =>
        cases op.compareNumbers? with
        | some holds => exact .inr ⟨_, _, rfl, rfl, through_flag _⟩
        | none => exact .inl ⟨rfl, rfl⟩
    | none | void | text _ | flag _ | array _ _ | function _ _ | promise _ => exact .inl ⟨rfl, rfl⟩
  | text x =>
    cases right.data with
    | text y =>
      simp only [Lens.data, onData, onTexts]
      cases op with
      | add => exact .inr ⟨_, _, rfl, rfl, through_text _⟩
      | less | lessEqual | greater | greaterEqual => exact .inr ⟨_, _, rfl, rfl, through_flag _⟩
      | _ => exact .inl ⟨rfl, rfl⟩
    | none | void | number _ | flag _ | array _ _ | function _ _ | promise _ => exact .inl ⟨rfl, rfl⟩
  | array identity items =>
    cases rightData : right.data with
    | array other more =>
      simp only [Lens.data, onData, Lens.items_map, ← List.map_append]
      split
      · refine .inr ⟨_, _, rfl, rfl, through_array _ fun bound plain => List.forall_mem_append.mpr ⟨?_, ?_⟩⟩
        · exact Value.fits_array (leftFine bound plain) identity items leftData
        · exact Value.fits_array (rightFine bound plain) other more rightData
      · exact .inl ⟨rfl, rfl⟩
    | none | void | number _ | text _ | flag _ | function _ _ | promise _ => exact .inl ⟨rfl, rfl⟩
  | none | void | flag _ | function _ _ | promise _ => exact .inl ⟨rfl, rfl⟩

theorem through_operate (op : BinaryOp) (left right : Value) (leftFine : ∀ bound, given bound → left.Fits bound)
    (rightFine : ∀ bound, given bound → right.Fits bound) :
    (operate op left right).Through lens given (operate op (lens.value left) (lens.value right)) lens.value
      Value.Fits := by
  have names : (do fail (.unsupportedOperands op.symbol (← nameOf left) (← nameOf right)) : Exec Value).Through lens given
      (do fail (.unsupportedOperands op.symbol (← nameOf (lens.value left)) (← nameOf (lens.value right)))) lens.value
      Value.Fits :=
    through_bind (through_name_of left) fun leftName => through_bind (through_name_of right) fun rightName => through_fail _
  have parts := @through_on_data lens given op left right leftFine rightFine
  unfold operate
  rw [lens.equals_value, lens.data_value, lens.data_value]
  cases op with
  | equal => exact through_flag _
  | notEqual => exact through_flag _
  | _ =>
    rcases parts with ⟨unknown, unseen⟩ | ⟨step, twin, known, seen, through⟩
    · simp only [unknown, unseen]
      exact names
    · simp only [known, seen]
      exact through

end Values

section Machines

theorem through_aside (change other : Machine → Machine)
    (natural : ∀ (machine : Machine) (early late : Nat), change (machine.pass early) = (change machine).pass early ∧
      other ((lens.machine machine).pass late) = (lens.machine (change machine)).pass late)
    (aside : ∀ machine : Machine, (change machine).classes = machine.classes ∧ (change machine).frames = machine.frames ∧
      (change machine).tasks = machine.tasks ∧ (change machine).microtasks = machine.microtasks ∧ (change machine).events = machine.events ∧
      (change machine).nextIdentity = machine.nextIdentity ∧ (lens.Inside → (change machine).ready = machine.ready)) :
    (modify change).Through lens given (modify other) id fun _ _ => True :=
  through_modify change other (fun machine early late _ _ _ => natural machine early late)
    (fun _ machine _ fit =>
      have ⟨classes, frames, tasks, microtasks, events, named, _⟩ := aside machine
      machine.fits_same fit _ classes frames tasks microtasks events named.symm.le)
    (fun machine => (aside machine).2.2.1) fun inside machine => (aside machine).2.2.2.2.2.2 inside

theorem through_timed (change : Machine → Machine) (all : given lens.bound → lens.bound = none)
    (natural : ∀ machine : Machine, change (lens.machine machine) = lens.machine (change machine))
    (aside : ∀ machine : Machine, (change machine).classes = machine.classes ∧ (change machine).frames = machine.frames ∧
      (change machine).tasks = machine.tasks ∧ (change machine).microtasks = machine.microtasks ∧ (change machine).events = machine.events ∧
      (change machine).nextIdentity = machine.nextIdentity ∧ (lens.Inside → (change machine).ready = machine.ready)) :
    (modify change).Through lens given (modify change) id fun _ _ => True := by
  refine through_modify change change (fun machine early late fine shifts _ => ?_) (fun _ machine _ fit => ?_)
    (fun machine => (aside machine).2.2.1) fun inside machine => (aside machine).2.2.2.2.2.2 inside
  · obtain ⟨rfl, rfl⟩ := shifts (all fine)
    exact ⟨rfl, natural machine⟩
  · have ⟨classes, frames, tasks, microtasks, events, named, _⟩ := aside machine
    exact machine.fits_same fit _ classes frames tasks microtasks events named.symm.le

theorem through_write_line (content : String) :
    (writeLine content).Through lens given (writeLine content) id fun _ _ => True :=
  through_aside _ _ (fun _ _ _ => ⟨rfl, rfl⟩) fun _ => ⟨rfl, rfl, rfl, rfl, rfl, rfl, fun _ => rfl⟩

theorem through_is_halted : isHalted.Through lens given isHalted id fun _ _ => True := through_look _ fun _ _ _ => rfl

theorem through_halt : halt.Through lens given halt id fun _ _ => True :=
  through_aside _ _ (fun _ _ _ => ⟨rfl, rfl⟩) fun _ => ⟨rfl, rfl, rfl, rfl, rfl, rfl, fun _ => rfl⟩

theorem through_clear_halt : clearHalt.Through lens given clearHalt id fun _ _ => True :=
  through_aside _ _ (fun _ _ _ => ⟨rfl, rfl⟩) fun _ => ⟨rfl, rfl, rfl, rfl, rfl, rfl, fun _ => rfl⟩

theorem through_pass (time : Config → Nat) : (modify fun machine => machine.pass (time machine.config)).Through lens given
    (modify fun machine => machine.pass (time machine.config)) id fun _ _ => True :=
  through_aside _ _ (fun machine early late => by
    simp only [Lens.machine, Machine.pass, Nat.add_right_comm _ early, Nat.add_right_comm _ late, and_self]) fun _ => ⟨rfl, rfl, rfl, rfl, rfl, rfl, fun _ => rfl⟩

theorem through_wait : wait.Through lens given wait id fun _ _ => True :=
  through_pass fun config => 1000 * config.pollInterval

theorem through_enqueue_line (line : Line) (alone : ¬ lens.Inside) :
    (enqueueLine line).Through lens given (enqueueLine (lens.line line)) id fun _ _ => True :=
  through_aside _ _ (fun machine _ _ => ⟨rfl, by simp [Lens.machine, Machine.pass]⟩)
    fun _ => ⟨rfl, rfl, rfl, rfl, rfl, rfl, fun inside => absurd inside alone⟩

end Machines

end CoopScript.Exec
