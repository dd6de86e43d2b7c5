import CoopScript.Proofs.Machine.Binding

set_option autoImplicit false
namespace CoopScript

-- A function that leaves no parameter without an argument when it is called with none.
structure Value.Bare (classes : ClassTable) (method : Value) : Prop where
  callable : classes.isFunction method = true
  supplied : ∀ function, method.function? = some function → function.parameters.missing [] = []

-- A conversion that reads what a call gives, and fails where it cannot. Both leave the same machine.
structure Outcome.Converts {α : Type} (look : Value → Option α) (called : Outcome Value) (converted : Outcome α) : Prop where
  done : ∀ content after, converted = .done content after ↔
    ∃ result, called = .done result after ∧ look result = some content
  failed : ∀ after, (∃ failure, converted = .failed failure after) ↔
    (∃ failure, called = .failed failure after) ∨ ∃ result, called = .done result after ∧ look result = none

theorem Exec.call_converts {α : Type} (look : Value → Option α) (call invoke : Exec Value) (machine : Machine)
    (same : call machine = invoke machine) (change : Failure → Failure) (convert : Value → Exec α)
    (seen : ∀ result content, look result = some content → convert result = Pure.pure content)
    (unseen : ∀ result, look result = none → ∀ after, ∃ failure, convert result after = .failed failure after) :
    Outcome.Converts look (call.mapFailure change machine) ((invoke >>= convert) machine) := by
  cases called : call machine with
  | outOfFuel =>
    rw [bind_exhausted _ _ _ (same ▸ called), mapFailure, called]
    exact ⟨by simp, by simp⟩
  | failed failure middle =>
    rw [bind_failed _ _ _ _ _ (same ▸ called), mapFailure, called]
    exact ⟨by simp, by simp⟩
  | done result middle =>
    rw [bind_done _ _ _ _ _ (same ▸ called), mapFailure, called]
    cases looked : look result with
    | some content =>
      rw [seen result content looked]
      refine ⟨fun other after => ⟨fun done => ?_, ?_⟩, fun after => ⟨?_, ?_⟩⟩
      · cases done
        exact ⟨result, rfl, looked⟩
      · rintro ⟨_, ⟨⟩, known⟩
        rw [looked] at known
        cases known
        rfl
      · rintro ⟨_, ⟨⟩⟩
      · rintro (⟨_, ⟨⟩⟩ | ⟨_, ⟨⟩, unknown⟩)
        rw [looked] at unknown
        cases unknown
    | none =>
      obtain ⟨failure, failed⟩ := unseen result looked middle
      rw [failed]
      exact ⟨by simp [looked], by simp [looked]⟩

namespace Engine
variable (engine : Engine) (value method : Value) (frame : FrameId) (machine : Machine)

theorem call_unsupplied (callable : machine.classes.isFunction method = true) (parameters : Parameters) (distinct : parameters.Distinct)
    (declared : (match method.function? with | some function => function.parameters | none => .variadic) = parameters) :
    engine.call value method [] frame machine =
      engine.invoke value method ⟨(parameters.missing []).map (·, machine.classes.void)⟩ frame machine := by
  subst declared
  unfold call
  rw [Exec.nameOf, Exec.read_then, Exec.read_then, callable]
  cases own : method.function? with
  | some function =>
    rw [own] at distinct
    simp only [Bool.not_true, Bool.false_eq_true, if_false]
    show (do let bindings ← engine.bindArguments function.name function.parameters [] frame
             engine.invoke value method bindings frame) machine = _
    rw [engine.bound_placed function.name function.parameters frame distinct [] (Parameters.well_placed_nil _)]
    rfl
  | none => rfl

theorem call_bare (bare : method.Bare machine.classes) :
    engine.call value method [] frame machine = engine.invoke value method .empty frame machine := by
  let parameters := match method.function? with | some function => function.parameters | none => .variadic
  have missing : parameters.missing [] = [] := by
    cases own : method.function? with
    | some function => simpa [parameters, own] using bare.supplied function own
    | none => simp [parameters, own, Parameters.missing]
  have distinct : parameters.Distinct := fun names named => by
    rw [named] at missing
    have nothing : names = [] := by simpa [Parameters.missing] using missing
    exact nothing ▸ List.nodup_nil
  rw [engine.call_unsupplied value method frame machine bare.callable parameters distinct rfl, missing]
  rfl

theorem stringify_called (member : value.member? "__str__" = some method) (bare : method.Bare machine.classes)
    (change : Failure → Failure) :
    Outcome.Converts Value.text? ((engine.call value method [] frame).mapFailure change machine)
      (engine.stringify value frame machine) := by
  rw [stringify, member]
  refine Exec.call_converts Value.text? _ _ machine (engine.call_bare value method frame machine bare) change _ ?_ ?_
  · intro result content looked
    simp only [looked]
  · intro result looked after
    simp only [looked]
    exact ⟨_, rfl⟩

theorem truthy_called (plain : value.flag? = none) (member : value.member? "__bool__" = some method)
    (bare : method.Bare machine.classes) (change : Failure → Failure) :
    Outcome.Converts Value.flag? ((engine.call value method [] frame).mapFailure change machine)
      (engine.truthy value frame machine) := by
  rw [truthy, plain, member]
  refine Exec.call_converts Value.flag? _ _ machine (engine.call_bare value method frame machine bare) change _ ?_ ?_
  · intro result content looked
    simp only [looked]
  · intro result looked after
    simp only [looked]
    exact ⟨_, rfl⟩

end Engine

-- A script's call of a value's member, without arguments.
def Node.memberCall (object : Node) (member : String) (here inner : Position) : Node :=
  .call "call" here (.access "access" inner object member) []

theorem RuleSet.member_call (fuel : Nat) (object : Node) (name : String) (here inner : Position) (frame : FrameId)
    (machine middle : Machine) (value method : Value)
    (given : (RuleSet.standard.engine fuel).evaluate object frame machine = .done value middle)
    (member : value.member? name = some method) :
    (RuleSet.standard.engine (fuel + 1)).evaluate (object.memberCall name here inner) frame machine =
      ((RuleSet.standard.engine fuel).call value method [] frame).mapFailure (·.orPosition (some here)) middle := by
  show Exec.mapFailure (·.orPosition (some here)) (_ >>= _) machine = _
  simp only [Exec.mapFailure]
  rw [Exec.bind_done _ _ _ _ _ given, Exec.memberOf, member]
  rfl

/-- Where a function is used that can do without arguments, a conversion gives what a script would get by calling it. -/
theorem conversion_as_called (fuel : Nat) (object : Node) (here inner : Position) (frame : FrameId) (machine middle : Machine)
    (value method : Value) (given : (RuleSet.standard.engine fuel).evaluate object frame machine = .done value middle)
    (bare : method.Bare middle.classes) :
    (value.member? "__str__" = some method →
      ((RuleSet.standard.engine (fuel + 1)).evaluate (object.memberCall "__str__" here inner) frame machine).Converts
        Value.text? ((RuleSet.standard.engine fuel).stringify value frame middle)) ∧
    (value.flag? = none → value.member? "__bool__" = some method →
      ((RuleSet.standard.engine (fuel + 1)).evaluate (object.memberCall "__bool__" here inner) frame machine).Converts
        Value.flag? ((RuleSet.standard.engine fuel).truthy value frame middle)) := by
  refine ⟨fun member => ?_, fun plain member => ?_⟩
  · rw [RuleSet.member_call fuel object "__str__" here inner frame machine middle value method given member]
    exact Engine.stringify_called _ value method frame middle member bare _
  · rw [RuleSet.member_call fuel object "__bool__" here inner frame machine middle value method given member]
    exact Engine.truthy_called _ value method frame middle plain member bare _

def Value.bare? (classes : ClassTable) (method : Value) : Bool :=
  classes.isFunction method && method.function?.all fun function => (function.parameters.missing []).isEmpty

theorem Value.bare_of_test (classes : ClassTable) (method : Value) (passed : method.bare? classes = true) :
    method.Bare classes := by
  obtain ⟨callable, supplied⟩ := Bool.and_eq_true_iff.mp passed
  refine ⟨callable, fun function own => ?_⟩
  rw [own, Option.all_some] at supplied
  exact List.isEmpty_iff.mp supplied

-- A value of a class whose texts are made by a script's function is bound to `x`.
def Engine.setThing (engine : Engine) (source : String) : Exec Unit := do
  let _ ← engine.evalSource source
  engine.performAll
    [.defineClass "thing" .user [.named "object"] [("__str__", .binding "global" "show")] [] [],
     .setVariable "global" "x" (.plain "thing")]

def Node.thing : Node := .reference "x" (.start none)

def Node.thingText : Node := Node.thing.memberCall "__str__" (.start none) (.start none)

theorem own_text_as_called : ∃ (thing called : Value) (machine middle after : Machine),
    (RuleSet.standard.engine 30).setThing "fn show() \x7b return \"shown\" \x7d" (Machine.start .standard) = .done () machine ∧
      (RuleSet.standard.engine 29).evaluate .thing Arena.root machine = .done thing middle ∧
      (RuleSet.standard.engine 30).evaluate .thingText Arena.root machine = .done called after ∧
      called.text? = some "shown" ∧ (RuleSet.standard.engine 29).stringify thing Arena.root middle = .done "shown" after := by
  obtain ⟨_, machine, set, facts⟩ := Outcome.gives_done
    ((RuleSet.standard.engine 30).setThing "fn show() \x7b return \"shown\" \x7d" (Machine.start .standard))
    (fun _ machine => ((RuleSet.standard.engine 29).evaluate .thing Arena.root machine).gives fun thing middle =>
      (thing.member? "__str__").any (·.bare? middle.classes) &&
        ((RuleSet.standard.engine 30).evaluate .thingText Arena.root machine).gives fun called _ =>
          called.text? == some "shown") (by decide +kernel)
  obtain ⟨thing, middle, given, facts⟩ := Outcome.gives_done _ _ facts
  obtain ⟨bare, called⟩ := Bool.and_eq_true_iff.mp facts
  obtain ⟨method, member, bare⟩ := (Option.any_eq_true _ _).mp bare
  obtain ⟨result, after, ran, text⟩ := Outcome.gives_done _ _ called
  have converts := (conversion_as_called 29 .thing (.start none) (.start none) Arena.root machine middle thing method given
    (Value.bare_of_test _ _ bare)).1 member
  exact ⟨thing, result, machine, middle, after, set, given, ran, eq_of_beq text,
    (converts.done _ _).mpr ⟨result, ran, eq_of_beq text⟩⟩

-- With a parameter, what is bound outside under its name shows through where a text is asked for, and not where the
-- function is called.
theorem outer_shows_through : ∃ (thing called : Value) (machine middle after later : Machine),
    (RuleSet.standard.engine 30).setThing "fn show(p) \x7b return p \x7d p = \"outer\"" (Machine.start .standard) =
        .done () machine ∧
      (RuleSet.standard.engine 29).evaluate .thing Arena.root machine = .done thing middle ∧
      (RuleSet.standard.engine 30).evaluate .thingText Arena.root machine = .done called after ∧ called.text? = none ∧
      (RuleSet.standard.engine 29).stringify thing Arena.root middle = .done "outer" later := by
  obtain ⟨_, machine, set, facts⟩ := Outcome.gives_done
    ((RuleSet.standard.engine 30).setThing "fn show(p) \x7b return p \x7d p = \"outer\"" (Machine.start .standard))
    (fun _ machine => ((RuleSet.standard.engine 29).evaluate .thing Arena.root machine).gives fun thing middle =>
      (((RuleSet.standard.engine 30).evaluate .thingText Arena.root machine).gives fun called _ => called.text?.isNone) &&
        ((RuleSet.standard.engine 29).stringify thing Arena.root middle).gives fun text _ => text == "outer")
    (by decide +kernel)
  obtain ⟨thing, middle, given, facts⟩ := Outcome.gives_done _ _ facts
  obtain ⟨called, converted⟩ := Bool.and_eq_true_iff.mp facts
  obtain ⟨result, after, ran, text⟩ := Outcome.gives_done _ _ called
  obtain ⟨shown, later, stringified, same⟩ := Outcome.gives_done _ _ converted
  cases eq_of_beq same
  exact ⟨thing, result, machine, middle, after, later, set, given, ran, Option.isNone_iff_eq_none.mp text, stringified⟩

end CoopScript
