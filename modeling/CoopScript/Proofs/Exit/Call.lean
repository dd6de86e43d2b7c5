import CoopScript.Proofs.Exit.Schedule

set_option autoImplicit false
namespace CoopScript

namespace Builtin
variable {leeway : Leeway} (code : Builtin) (target result : Value)

theorem gives_text (fine : result.Tame leeway ∧ result.text?.isSome = true) (truthless : code.truthful = false) :
    code.Gives leeway target result :=
  ⟨fine.1, fun _ => fine.2, fun truthful => absurd (truthless.symm.trans truthful) Bool.false_ne_true⟩

theorem gives_flag (fine : result.Tame leeway ∧ result.flag?.isSome = true) (textless : ¬ code.GivesText target) :
    code.Gives leeway target result :=
  ⟨fine.1, fun gives => absurd gives textless, fun _ => fine.2⟩

theorem gives_any (fine : result.Tame leeway) (textless : ¬ code.GivesText target) (truthless : code.truthful = false) :
    code.Gives leeway target result :=
  ⟨fine, fun gives => absurd gives textless, fun truthful => absurd (truthless.symm.trans truthful) Bool.false_ne_true⟩

end Builtin

namespace Binding
variable (binding : Binding) (function : String) (parameters : Parameters) (argument : Node)

theorem place_refused (cause : Cause) (refused : binding.place function parameters argument = .error cause) :
    cause.isRefusal = true := by
  unfold place at refused
  grind [Cause.isRefusal]

theorem placed_fits (leeway : Leeway) (node : Node) (name : String)
    (placed : binding.place function parameters argument = .ok (name, node)) :
    (argument.still leeway = true → node.still leeway = true) ∧
      (argument.tolerant leeway = true → node.tolerant leeway = true) := by
  have same : node = argument ∨ ∃ label position target, argument = .assign label position target node := by
    unfold place at placed
    cases assigned : argument.assignment? with
    | none =>
      rw [assigned] at placed
      simp only at placed
      refine .inl ?_
      grind
    | some entry =>
      obtain ⟨target, value⟩ := entry
      rw [assigned] at placed
      simp only at placed
      obtain rfl : value = node := by grind
      unfold Node.assignment? at assigned
      split at assigned
      next label position _ _ =>
        cases assigned
        exact .inr ⟨label, position, target, rfl⟩
      next => cases assigned
  rcases same with rfl | ⟨label, position, target, rfl⟩
  · exact ⟨fun fits => fits, fun fits => fits⟩
  · simp only [Node.still, Node.tolerant, Bool.and_eq_true]
    exact ⟨And.right, And.right⟩

end Binding

namespace Engine

section Calls
variable {leeway : Leeway} {level : Bool → Prop} (engine : Engine) (prudent : engine.Prudent leeway) (frame : FrameId)
include prudent

theorem tends_invoke_builtin (target method : Value) (code : Builtin) (targetTame : target.Tame leeway)
    (tame : method.Tame leeway) (runs : method.Runs code) (quiet : code.quiet = true) :
    (engine.invoke target method .empty frame).Tends leeway frame level level (code.Gives leeway target) := by
  obtain ⟨function, known, body⟩ := runs.function
  have native := prudent.quiet code ⟨target, method, .empty, frame⟩ level quiet
    ⟨targetTame, tame, NameMap.all_empty (Value.Tame leeway)⟩
  unfold invoke callFunction
  rw [runs.hook]
  simp only [known, body]
  exact native

theorem tends_stringify (value : Value) (tame : value.Tame leeway) :
    (engine.stringify value frame).Tends leeway frame level level fun _ => True := by
  unfold stringify
  cases found : value.member? "__str__" with
  | none => exact Exec.tends_bind _ (Exec.tends_name_of value) fun _ _ => Exec.tends_pure _ trivial
  | some method =>
    obtain ⟨code, runs, gives⟩ := value.tame_text_method leeway tame method found
    have methodTame := value.tame_member leeway tame "__str__" method found
    apply Exec.tends_bind _ (engine.tends_invoke_builtin prudent frame value method code tame methodTame runs
      (code.text_quiet value gives))
    intro result given
    obtain ⟨text, told⟩ := Option.isSome_iff_exists.mp (given.text gives)
    simp only [told]
    exact Exec.tends_pure _ trivial

theorem tends_truthy (value : Value) (tame : value.Tame leeway) :
    (engine.truthy value frame).Tends leeway frame level level fun _ => True := by
  unfold truthy
  cases value.flag? with
  | some flag => exact Exec.tends_pure _ trivial
  | none =>
    cases found : value.member? "__bool__" with
    | none => exact Exec.tends_pure _ trivial
    | some method =>
      obtain ⟨code, runs, truthful⟩ := value.tame_truth_method leeway tame method found
      have methodTame := value.tame_member leeway tame "__bool__" method found
      apply Exec.tends_bind _ (engine.tends_invoke_builtin prudent frame value method code tame methodTame runs
        (code.truth_quiet truthful))
      intro result given
      obtain ⟨flag, told⟩ := Option.isSome_iff_exists.mp (given.truth truthful)
      simp only [told]
      exact Exec.tends_pure _ trivial

theorem tends_texts (values : List Value) (tame : ∀ value ∈ values, value.Tame leeway) :
    (engine.texts values frame).Tends leeway frame level level fun _ => True :=
  Exec.tends_better (Exec.tends_collect _ values fun value member =>
    engine.tends_stringify prudent frame value (tame value member)) fun _ _ => trivial

theorem tends_quiet (code : Builtin) (invocation : Invocation) (quiet : code.quiet = true)
    (tame : invocation.Tame leeway) :
    (engine.runBuiltin code invocation).Tends leeway invocation.frame level level
      (code.Gives leeway invocation.target) := by
  have text : ∀ (code : Builtin) (content : String), code.truthful = false →
      (Exec.text content).Tends leeway invocation.frame level level (code.Gives leeway invocation.target) :=
    fun code content truthless => Exec.tends_better (Exec.tends_text content) fun result fine =>
      code.gives_text invocation.target result fine truthless
  have flag : ∀ (code : Builtin) (truth : Bool), ¬ code.GivesText invocation.target →
      (Exec.flag truth).Tends leeway invocation.frame level level (code.Gives leeway invocation.target) :=
    fun code truth textless => Exec.tends_better (Exec.tends_flag truth) fun result fine =>
      code.gives_flag invocation.target result fine textless
  have number : ∀ (code : Builtin) (x : Float), ¬ code.GivesText invocation.target → code.truthful = false →
      (Exec.number x).Tends leeway invocation.frame level level (code.Gives leeway invocation.target) :=
    fun code x textless truthless => Exec.tends_better (Exec.tends_number x) fun result fine =>
      code.gives_any invocation.target result fine textless truthless
  have items : ∀ item ∈ invocation.target.items?.getD [], item.Tame leeway := by
    intro item member
    cases known : invocation.target.items? with
    | none => simp [known] at member
    | some items =>
      rw [known] at member
      exact invocation.target.tame_items leeway tame.target items known item member
  cases code with
  | objectText => exact Exec.tends_bind _ (Exec.tends_name_of _) fun _ _ => text .objectText _ rfl
  | objectTruth => exact flag .objectTruth true (by simp [Builtin.GivesText, Builtin.textual])
  | functionText =>
    unfold runBuiltin
    simp only
    cases invocation.target.function? <;> exact text .functionText _ rfl
  | voidText => exact text .voidText _ rfl
  | voidTruth => exact flag .voidTruth false (by simp [Builtin.GivesText, Builtin.textual])
  | numberText => exact text .numberText _ rfl
  | stringText =>
    refine Exec.tends_pure invocation.target ⟨tame.target, fun gives => ?_, fun truthful => by cases truthful⟩
    rcases gives with textual | ⟨_, told⟩
    · cases textual
    · exact told
  | stringLength => exact number .stringLength _ (by simp [Builtin.GivesText, Builtin.textual]) rfl
  | booleanText => exact text .booleanText _ rfl
  | booleanTruth => exact flag .booleanTruth _ (by simp [Builtin.GivesText, Builtin.textual])
  | arrayText =>
    exact Exec.tends_bind _ (engine.tends_texts prudent invocation.frame _ items) fun _ _ => text .arrayText _ rfl
  | arrayTruth => exact flag .arrayTruth _ (by simp [Builtin.GivesText, Builtin.textual])
  | arrayLength => exact number .arrayLength _ (by simp [Builtin.GivesText, Builtin.textual]) rfl
  | promiseText => exact Exec.tends_bind _ (Exec.tends_seen _) fun _ _ => text .promiseText _ rfl
  | print =>
    have argumentsTame : ∀ value ∈ invocation.arguments.values, value.Tame leeway := by
      intro value member
      obtain ⟨entry, entryMember, rfl⟩ := List.mem_map.mp member
      exact tame.arguments entry entryMember
    apply Exec.tends_bind _ (engine.tends_texts prudent invocation.frame _ argumentsTame)
    intro words _
    apply Exec.tends_bind _ (Exec.tends_write_line _)
    exact fun _ _ => Exec.tends_better Exec.tends_void fun result fine =>
      Builtin.gives_any .print invocation.target result fine (by simp [Builtin.GivesText, Builtin.textual]) rfl
  | exit => cases quiet
  | sleep => cases quiet

theorem tends_run_builtin (code : Builtin) (invocation : Invocation) (tame : invocation.Tame leeway) :
    (engine.runBuiltin code invocation).Tends leeway invocation.frame leeway.Calls Anyhow (Value.Tame leeway) := by
  by_cases quiet : code.quiet = true
  · exact Exec.tends_anyhow (Exec.tends_better (engine.tends_quiet prudent code invocation quiet tame)
      fun _ given => given.tame)
  · cases code with
    | exit => exact Exec.tends_bind _ Exec.tends_halt fun _ _ => Exec.tends_void
    | sleep =>
      unfold runBuiltin sleep
      simp only
      cases ((invocation.arguments.find? "ms").bind Value.number?).bind Number.floor? with
      | some milliseconds => exact Exec.tends_anyhow (Exec.tends_spawn_blocking .void _)
      | none =>
        refine Exec.tends_allowed .badDuration (by simp) fun halted calls isHalted => ?_
        exact ⟨.badDuration, Failure.has_cause_of _, .inr (.inl ⟨calls isHalted, .inl rfl⟩)⟩
    | _ => exact absurd rfl quiet

theorem tends_invoke (target function : Value) (arguments : Bindings) (targetTame : target.Tame leeway)
    (tame : function.Tame leeway) (argumentsTame : arguments.All (Value.Tame leeway))
    (callable : function.classId = .function) :
    (engine.invoke target function arguments frame).Tends leeway frame leeway.Calls Anyhow (Value.Tame leeway) := by
  obtain ⟨hook, content, known⟩ := function.tame_callable leeway tame callable
  have ordinary := function.plain_function (function.tame_plain leeway tame) content known
  have fits := function.tame_body leeway tame content known
  unfold invoke callFunction
  rw [hook]
  simp only [known]
  cases body : content.body with
  | native code =>
    obtain ⟨builtin, rfl⟩ := ordinary code body
    exact prudent.native builtin ⟨target, function, arguments, frame⟩ ⟨targetTame, tame, argumentsTame⟩
  | script lines =>
    simp only
    split
    · exact Exec.tends_anyhow
        (Exec.tends_spawn_async content.name lines arguments argumentsTame (fits lines body))
    · exact engine.tends_invoke_script prudent content.name lines arguments frame argumentsTame (fits lines body)

theorem tends_bind_all (function : String) (parameters : Parameters) (arguments : List Node) (binding : Binding)
    (bound : binding.bound.All (Value.Tame leeway)) (fits : Node.tolerantArguments leeway arguments = true) :
    (engine.bindAll function parameters frame binding arguments).Tends leeway frame leeway.Operates leeway.Calls
      fun bindings => bindings.All (Value.Tame leeway) := by
  induction arguments generalizing binding with
  | nil =>
    exact Exec.tends_weaken (Exec.tends_pure binding.bound bound) (fun _ begun => begun)
      (fun _ operates isHalted => .inr (operates isHalted)) fun _ fine => fine
  | cons argument rest ih =>
    unfold bindAll
    cases placed : binding.place function parameters argument with
    | error cause =>
      have refusal := binding.place_refused function parameters argument cause placed
      cases argument.position? with
      | some position => exact Exec.tends_fail_at cause position refusal
      | none => exact Exec.tends_fail cause refusal
    | ok place =>
      obtain ⟨name, node⟩ := place
      obtain ⟨still, tolerant⟩ := binding.placed_fits function parameters argument leeway node name placed
      simp only [Node.tolerantArguments, Bool.or_eq_true, Bool.and_eq_true] at fits
      rcases fits with ⟨argumentStill, more⟩ | ⟨⟨nests, argumentTolerant⟩, last⟩
      · apply Exec.tends_bind _ (prudent.still node frame (still argumentStill))
        exact fun value tame => ih _ (binding.all_added _ argument name value bound tame) more
      · obtain rfl := List.isEmpty_iff.mp last
        apply Exec.tends_bind _ (prudent.tolerant node frame (tolerant argumentTolerant))
        intro value tame
        exact Exec.tends_weaken (Exec.tends_pure _ (binding.all_added _ argument name value bound tame))
          (fun _ begun => begun) (fun _ _ _ => .inl nests) fun _ fine => fine

theorem tends_call (target function : Value) (arguments : List Node) (targetTame : target.Tame leeway)
    (tame : function.Tame leeway) (fits : Node.tolerantArguments leeway arguments = true) :
    (engine.call target function arguments frame).Tends leeway frame leeway.Operates Anyhow (Value.Tame leeway) := by
  apply Exec.tends_bind _ (Exec.tends_name_of function)
  intro className _
  have asked : (Exec.read (·.classes.isFunction function)).Tends leeway frame leeway.Operates leeway.Operates
      fun callable => callable = true → function.classId = .function :=
    Exec.tends_read _ fun machine machineTame callable =>
      ClassTable.intrinsic_callable function (machineTame.classes ▸ callable)
  apply Exec.tends_bind _ asked
  intro callable known
  cases callable with
  | false => exact Exec.tends_stop (.notCallable className) _ rfl
  | true =>
    have bound : ∀ name parameters,
        (engine.bindArguments name parameters arguments frame).Tends leeway frame leeway.Operates leeway.Calls
          fun bindings => bindings.All (Value.Tame leeway) := by
      intro name parameters
      apply Exec.tends_bind _ (engine.tends_bind_all prudent frame name parameters arguments .start
        (NameMap.all_empty (Value.Tame leeway)) fits)
      intro bindings bindingsTame
      apply Exec.tends_bind _ Exec.tends_void
      exact fun void voidTame => Exec.tends_pure _ (Binding.all_filled _ void parameters bindings voidTame bindingsTame)
    apply Exec.tends_bind _ (bound _ _)
    exact fun bindings bindingsTame =>
      engine.tends_invoke prudent frame target function bindings targetTame tame bindingsTame (known rfl)

end Calls

end Engine

end CoopScript
