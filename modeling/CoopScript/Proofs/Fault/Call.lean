import CoopScript.Proofs.Fault.Primitive

set_option autoImplicit false
namespace CoopScript

structure Invocation.Sure (count : Nat) (invocation : Invocation) : Prop where
  target : invocation.target.Sure count
  function : invocation.function.Sure count
  arguments : invocation.arguments.All (Value.Sure count)

-- An engine that runs nodes, builtin functions and the lines of functions without a fault of its own.
structure Engine.Clear (engine : Engine) : Prop where
  prudent : engine.Prudent .full
  evaluate : ∀ count node frame, node.still .full = true →
    (engine.evaluate node frame).Clears count frame fun more value => value.Sure more
  execute : ∀ count node frame, node.prudent .full frame.isInner = true →
    (engine.execute node frame).Clears count frame fun _ _ => True
  native : ∀ count code invocation, invocation.Sure count →
    (engine.native (.builtin code) invocation).Clears count invocation.frame fun more value => value.Sure more
  body : ∀ count lines frame, Node.allPrudent .full frame.isInner lines = true →
    (engine.body lines frame).Clears count frame fun more result => ∀ value, result = some value → value.Sure more

theorem Exec.clears_enclosed {α β γ : Type} {count : Nat} {good : Nat → α → Prop} {fine : Nat → γ → Prop} (body : Exec α)
    (close : Exec β) (rest : Except Failure α → β → Exec γ) (closed : Machine → Prop) (machine : Machine)
    (clears : (body machine).Clears count good)
    (closes : ∀ left, (body machine).Leaves left → left.Tame .full → left.Within → ∃ result after,
      close left = .done result after ∧ after.Tame .full ∧ after.Within ∧ after.tasks = left.tasks ∧ closed after)
    (passes : ∀ failure result machine, rest (.error failure) result machine = .failed failure machine)
    (gives : ∀ value result after, after.Tame .full → after.Within → closed after → count ≤ after.tasks.count →
      good after.tasks.count value → (rest (.ok value) result after).Clears count fine) :
    ((do let outcome ← body.attempt; let result ← close; rest outcome result) machine).Clears count fine := by
  cases ran : body machine with
  | done value left =>
    rw [ran] at clears
    obtain ⟨result, after, closing, tame, within, same, isClosed⟩ := closes left (.inl ⟨value, ran⟩) clears.1 clears.2.1
    rw [Exec.bind_done _ _ _ left (.ok value) (by simp only [attempt, ran]), Exec.bind_done _ _ _ after result closing]
    exact gives value result after tame within isClosed (same ▸ clears.2.2.1) (same ▸ clears.2.2.2)
  | failed failure left =>
    rw [ran] at clears
    obtain ⟨result, after, closing, tame, within, _⟩ := closes left (.inr ⟨failure, ran⟩) clears.1 clears.2.1
    rw [Exec.bind_done _ _ _ left (.error failure) (by simp only [attempt, ran]),
      Exec.bind_done _ _ _ after result closing, passes]
    exact ⟨tame, within, clears.2.2⟩
  | outOfFuel =>
    rw [Exec.bind_exhausted _ _ _ (by simp only [attempt, ran])]
    trivial

namespace Engine
variable (engine : Engine) (clear : engine.Clear) {count : Nat}
include clear

theorem clears_execute_line (node : Node) (frame : FrameId) (fits : node.prudent .full frame.isInner = true) :
    (engine.executeLine node frame).Clears count frame fun _ _ => True :=
  Exec.clears_map_failure (trace node) (Failure.traced_cause node) (clear.execute count node frame fits)

theorem clears_step (id : RunnerId) : (engine.step id).Clears count Arena.root fun _ _ => True := by
  intro stage stageClear held counted
  apply stage.clears_look stageClear
  apply stage.clears_look stageClear
  split
  next => exact Exec.clears_pure _ trivial stage stageClear held counted
  apply stage.clears_look stageClear
  cases known : stage.machine.runner? id with
  | none => exact Exec.clears_pure _ trivial stage stageClear held counted
  | some runner =>
    have listed := List.mem_of_find?_eq_some (stage.machine.runner_found id runner known)
    have own : runner.Prudent .full := stageClear.fit.tame.runners (id, runner) listed
    have frameHeld : runner.frame ∈ stage.firm := by
      have registered : runner.frame ∈ stage.machine.registered.map Prod.snd :=
        List.mem_map.mpr ⟨(id, runner.frame), List.mem_map.mpr ⟨(id, runner), listed, rfl⟩, rfl⟩
      simp only [Stage.firm, List.mem_cons, List.mem_append]
      exact .inr (.inl (.inl registered))
    have updated : ∀ change : Runner → Runner, (∀ other, (change other).frame = other.frame) →
        (change runner).Prudent .full →
        stage.Clears (fun _ _ => True) (Exec.modify (·.updateRunner id change)) := by
      intro change sameFrame fits
      have bears : stage.Bears .full Anyhow (fun _ => True) (Exec.modify (·.updateRunner id change)) :=
        Exec.bears_update_runner stage stageClear.fit trivial id change sameFrame fun other found => by
          obtain rfl := Option.some.inj (known.symm.trans found)
          exact fits
      obtain ⟨follows, tame, _⟩ := bears
      exact ⟨follows, tame, ⟨stageClear.within.frames, stageClear.within.tasks⟩, Nat.le_refl _, trivial⟩
    cases lines : runner.lines with
    | nil =>
      simp only [lines]
      refine stage.clears_bind stageClear _ (updated (fun runner => { runner with finished := true }) (fun _ => rfl) own) ?_
      exact fun _ machine _ _ machineClear _ _ =>
        Exec.clears_pure _ trivial _ machineClear (stage.put machine).root_firm rfl
    | cons node rest =>
      simp only [lines]
      rw [Runner.Prudent, lines, Node.allPrudent, Bool.and_eq_true] at own
      refine stage.clears_bind stageClear _ (updated (fun runner => { runner with lines := rest }) (fun _ => rfl) own.2) ?_
      intro _ machine _ reaches machineClear _ _
      -- What remains of the step is done in the frame of the runner.
      have remaining : Exec.Clears machine.tasks.count runner.frame (fun _ _ => True)
          (do let value ← engine.executeLine node runner.frame; Exec.record id value; return .inl () :
            Exec (Unit ⊕ Unit)) :=
        Exec.clears_bind _ (engine.clears_execute_line clear node runner.frame own.1) fun _ value _ _ =>
          Exec.clears_bind _ (Exec.clears_record id value) fun _ _ _ _ => Exec.clears_pure _ trivial
      exact remaining _ machineClear ((stage.firm_put machine reaches.registered runner.frame).mpr frameHeld) rfl

theorem clears_drive (id : RunnerId) : (engine.drive id).Clears count Arena.root fun _ _ => True :=
  Exec.clears_iterate (fun _ => engine.step id) (fun _ _ _ => Exec.clears_weaken (engine.clears_step clear id)
    fun _ result _ _ => by cases result <;> trivial) engine.fuel ()

theorem clears_run_block (lines : List Node) (frame : FrameId)
    (fits : Node.allPrudent .full frame.isInner lines = true) :
    (engine.runBlock lines frame).Clears count frame fun _ _ => True := by
  apply Exec.clears_lawful (engine.lawful_run_block clear.prudent.lawful lines frame)
  intro stage stageClear held _
  obtain ⟨id, opened, created⟩ := stage.create_runner_live stageClear.fit lines frame held
  obtain ⟨openedTame, _⟩ := stage.machine.tame_opened .full stageClear.fit.tame lines frame id opened fits created
  obtain ⟨openedWithin, same⟩ := stage.machine.within_opened stageClear.within lines frame id opened created
  have openedFit := stage.step_fit stageClear.fit _ (.openBlock stage lines frame id opened created) openedTame
  have openedClear : (stage.put opened).Clear := ⟨openedFit, openedWithin⟩
  have drives := engine.clears_drive clear id _ openedClear (stage.put opened).root_firm rfl
  have counted : stage.count = (stage.put opened).count := congrArg TaskTable.count same.symm
  unfold runBlock
  rw [Exec.bind_done _ _ _ opened id created, counted]
  apply Exec.clears_enclosed (engine.drive id) (Exec.finishRunner id) _ (fun _ => True) opened drives.2
  · intro left leaves leftTame leftWithin
    have leftClear := (stage.put opened).clears_left openedClear drives left leaves
    obtain ⟨last, after, finished⟩ := (stage.put left).finish_runner_total id leftClear.fit.sound
    obtain ⟨afterTame, _⟩ := left.tame_finished .full leftTame id last after finished
    obtain ⟨afterWithin, sameTasks⟩ := left.within_finished leftWithin id last after finished
    exact ⟨last, after, finished, afterTame, afterWithin, sameTasks, trivial⟩
  · exact fun _ _ _ => rfl
  · exact fun _ _ after tame within _ more _ => ⟨tame, within, more, trivial⟩

theorem clears_run_body (lines : List Node) (frame : FrameId)
    (fits : Node.allPrudent .full frame.isInner lines = true) :
    (engine.runBody lines frame).Clears count frame fun more result => ∀ value, result = some value → value.Sure more :=
  Exec.clears_bind _ (engine.clears_run_block clear lines frame fits) fun _ _ _ _ => Exec.clears_take_return

theorem run_frame_clears (name : String) (lines : List Node) (frame : FrameId) (task : Option TaskId)
    (calls : List Call) (held : List FrameId) (machine : Machine)
    (stageClear : (Stage.mk (⟨frame, task, false⟩ :: calls) held machine).Clear)
    (fits : Node.allPrudent .full frame.isInner lines = true) :
    (Stage.mk (⟨frame, task, false⟩ :: calls) held machine).Clears (fun more value => value.Sure more)
      (engine.runFrame name lines frame) := by
  have fit := stageClear.fit
  have follows :=
    engine.run_frame_follows clear.prudent.lawful name lines frame frame task calls held machine fit.sound
  refine ⟨?_, ?_⟩
  · rcases Exec.follows_cases _ _ _ follows with ⟨value, after, done, reaches, _⟩ | ⟨failure, after, failed, breaks⟩ | none
    · exact Exec.follows_done _ _ _ value after done reaches trivial
    · exact Exec.follows_failed _ _ _ failure after failed breaks
    · exact Exec.follows_exhausted _ _ _ none
  · show (engine.runFrame name lines frame machine).Clears machine.tasks.count fun more value => value.Sure more
    by_cases deep : machine.config.depthLimit ≤ machine.depth
    · rw [engine.run_frame_refused name lines frame machine deep]
      exact ⟨fit.tame, stageClear.within, Failure.clean_of _ rfl⟩
    · rw [engine.run_frame_runs name lines frame machine (Nat.lt_of_not_le deep)]
      have tame := fit.tame
      have inner := (Stage.mk (⟨frame, task, false⟩ :: calls) held machine).step_fit fit _
        (.beginRun frame task calls held machine)
        ⟨tame.classes, tame.frames, tame.tasks, tame.microtasks, tame.runners, tame.ready⟩
      have runs := (clear.body _ lines frame fits _ ⟨inner, stageClear.within.frames, stageClear.within.tasks⟩
        (by simp [Stage.firm]) rfl).2
      cases ran : engine.body lines frame { machine with depth := machine.depth + 1 } with
      | done result after =>
        rw [show engine.body lines frame (Stage.machine _) = _ from ran] at runs
        obtain ⟨afterTame, afterWithin, more, fine⟩ := runs
        refine ⟨⟨afterTame.classes, afterTame.frames, afterTame.tasks, afterTame.microtasks, afterTame.runners,
          afterTame.ready⟩, ⟨afterWithin.frames, afterWithin.tasks⟩, more, ?_⟩
        cases result with
        | none =>
          show after.classes.void.Sure after.tasks.count
          rw [afterTame.classes]
          exact ⟨ClassTable.tame_void .full, ClassTable.within_scalar _ .void⟩
        | some value => exact fine value rfl
      | failed failure after =>
        rw [show engine.body lines frame (Stage.machine _) = _ from ran] at runs
        obtain ⟨afterTame, afterWithin, clean⟩ := runs
        exact ⟨⟨afterTame.classes, afterTame.frames, afterTame.tasks, afterTame.microtasks, afterTame.runners,
          afterTame.ready⟩, ⟨afterWithin.frames, afterWithin.tasks⟩, clean⟩
      | outOfFuel => trivial

theorem clears_invoke_script (name : String) (lines : List Node) (arguments : Bindings) (caller : FrameId)
    (sure : arguments.All (Value.Sure count)) (fits : Node.allPrudent .full true lines = true) :
    (engine.invokeScript name lines arguments caller).Clears count caller fun more value => value.Sure more := by
  have tame : arguments.All (Value.Tame .full) := fun entry member => (sure entry member).tame
  have plain : arguments.All Value.Plain := fun entry member => entry.2.tame_plain .full (tame entry member)
  apply Exec.clears_lawful (engine.lawful_invoke_script clear.prudent.lawful name lines arguments caller plain)
  intro stage stageClear held counted
  obtain rfl : stage.machine.tasks.count = count := counted
  have fit := stageClear.fit
  obtain ⟨frame, opened, pushed⟩ := stage.push_frame_live fit caller arguments held
  obtain ⟨openedTame, _⟩ := stage.machine.tame_pushed .full fit.tame _ caller frame arguments opened
    fit.sound.ledger tame pushed
  obtain ⟨openedWithin, same⟩ := stage.machine.within_pushed stageClear.within _ caller frame arguments opened
    fit.sound.ledger (fun entry member => (sure entry member).within) pushed
  have openedFit := stage.step_fit fit _ (.openCall stage caller frame arguments opened plain pushed) openedTame
  have inner := stage.pushed_inner fit.sound caller frame arguments opened pushed
  have runs := engine.run_frame_clears clear name lines frame none stage.calls stage.held opened
    ⟨openedFit, openedWithin⟩ (inner ▸ fits)
  have sameCount : stage.count = opened.tasks.count := congrArg TaskTable.count same.symm
  unfold invokeScript
  rw [Exec.bind_done _ _ _ opened frame pushed, sameCount]
  apply Exec.clears_enclosed (engine.runFrame name lines frame) (Exec.releaseFrame frame)
    (fun outcome _ => Exec.ofOutcome outcome) (fun _ => True) opened runs.2
  · intro left leaves leftTame leftWithin
    have leftClear := Stage.clears_left _ ⟨openedFit, openedWithin⟩ runs left leaves
    obtain ⟨frames, released, _, _⟩ := Exec.release_frame_kept frame _ left
      (Stage.call_ledger ⟨frame, none, false⟩ stage.calls stage.held left leftClear.fit.sound)
    obtain ⟨afterTame, _⟩ := left.tame_released .full leftTame frame _ released
    obtain ⟨afterWithin, sameTasks⟩ := left.within_released leftWithin frame _ released
    exact ⟨(), _, released, afterTame, afterWithin, sameTasks, trivial⟩
  · exact fun _ _ _ => rfl
  · exact fun _ _ after tame within _ more fine => ⟨tame, within, more, fine⟩

end Engine

namespace Exec
variable {α β : Type} {count : Nat} {frame : FrameId} {good : Nat → α → Prop} {step : Exec α}

-- What is known of the value a step gives, by what it tends to.
theorem clears_given {start last : Bool → Prop} {given : α → Prop} (clears : step.Clears count frame good)
    (tends : step.Tends .full frame start last given) (begins : ∀ halted, start halted) :
    step.Clears count frame fun more value => good more value ∧ given value := by
  intro stage clear held counted
  obtain ⟨follows, outcome⟩ := clears stage clear held counted
  have told := (tends stage clear.fit held (begins _)).2
  refine ⟨follows, ?_⟩
  cases ran : step stage.machine with
  | done value machine =>
    rw [ran] at outcome told
    exact ⟨outcome.1, outcome.2.1, outcome.2.2.1, outcome.2.2.2, told.2.2⟩
  | failed failure machine =>
    rw [ran] at outcome
    exact outcome
  | outOfFuel => trivial

theorem clears_collect (action : β → Exec α) (items : List β)
    (keeps : ∀ fewer more value, fewer ≤ more → good fewer value → good more value)
    (clears : ∀ more item, count ≤ more → item ∈ items → (action item).Clears more frame good) :
    (collect action items).Clears count frame fun more values => ∀ value ∈ values, good more value := by
  induction items generalizing count with
  | nil => exact clears_pure [] fun _ member => by cases member
  | cons first rest ih =>
    refine clears_bind _ (clears count first (Nat.le_refl _) List.mem_cons_self) fun more value fewer fine => ?_
    have later := ih fun most item fewerStill member =>
      clears most item (fewer.trans fewerStill) (List.mem_cons_of_mem _ member)
    refine clears_bind _ later fun most values fewerStill fineValues => ?_
    exact clears_pure _ (List.forall_mem_cons.mpr ⟨keeps more most value fewerStill fine, fineValues⟩)

theorem sure_keeps (fewer more : Nat) (value : Value) (fits : fewer ≤ more) (sure : value.Sure fewer) :
    value.Sure more :=
  value.sure_more fewer more fits sure

theorem clears_fail_named (value : Value) (cause : String → Cause) (refusal : ∀ name, (cause name).isRefusal = true) :
    Clears count frame good (do fail (cause (← nameOf value)) : Exec α) :=
  clears_bind _ (clears_name_of value) fun _ name _ _ => clears_fail (cause name) (refusal name)

end Exec

theorem Bindings.sure_more (fewer more : Nat) (bindings : Bindings) (fits : fewer ≤ more)
    (sure : bindings.All (Value.Sure fewer)) : bindings.All (Value.Sure more) :=
  fun entry member => entry.2.sure_more fewer more fits (sure entry member)

namespace Engine

section Calls
variable (engine : Engine) (clear : engine.Clear) {count : Nat} (frame : FrameId)
include clear

theorem clears_invoke_builtin (target method : Value) (code : Builtin) (targetSure : target.Sure count)
    (sure : method.Sure count) (runs : method.Runs code) (quiet : code.quiet = true) :
    (engine.invoke target method .empty frame).Clears count frame
      fun more value => value.Sure more ∧ code.Gives .full target value := by
  obtain ⟨function, known, body⟩ := runs.function
  have none : (NameMap.empty : Bindings).All (Value.Sure count) := NameMap.all_empty _
  have native := clear.native count code ⟨target, method, .empty, frame⟩ ⟨targetSure, sure, none⟩
  have gives := clear.prudent.quiet code ⟨target, method, .empty, frame⟩ Anyhow quiet
    ⟨targetSure.tame, sure.tame, NameMap.all_empty (Value.Tame .full)⟩
  unfold invoke callFunction
  rw [runs.hook]
  simp only [known, body]
  exact Exec.clears_given native gives fun _ => trivial

theorem clears_stringify (value : Value) (sure : value.Sure count) :
    (engine.stringify value frame).Clears count frame fun _ _ => True := by
  unfold stringify
  cases found : value.member? "__str__" with
  | none => exact Exec.clears_bind _ (Exec.clears_name_of value) fun _ _ _ _ => Exec.clears_pure _ trivial
  | some method =>
    obtain ⟨code, runs, gives⟩ := value.tame_text_method .full sure.tame method found
    have methodSure : method.Sure count := ⟨value.tame_member .full sure.tame "__str__" method found,
      value.within_member count sure.within "__str__" method found⟩
    refine Exec.clears_bind _ (engine.clears_invoke_builtin clear frame value method code sure methodSure runs
      (code.text_quiet value gives)) fun more result fewer given => ?_
    obtain ⟨text, told⟩ := Option.isSome_iff_exists.mp (given.2.text gives)
    simp only [told]
    exact Exec.clears_pure _ trivial

theorem clears_truthy (value : Value) (sure : value.Sure count) :
    (engine.truthy value frame).Clears count frame fun _ _ => True := by
  unfold truthy
  cases value.flag? with
  | some flag => exact Exec.clears_pure _ trivial
  | none =>
    cases found : value.member? "__bool__" with
    | none => exact Exec.clears_pure _ trivial
    | some method =>
      obtain ⟨code, runs, truthful⟩ := value.tame_truth_method .full sure.tame method found
      have methodSure : method.Sure count := ⟨value.tame_member .full sure.tame "__bool__" method found,
        value.within_member count sure.within "__bool__" method found⟩
      refine Exec.clears_bind _ (engine.clears_invoke_builtin clear frame value method code sure methodSure runs
        (code.truth_quiet truthful)) fun more result fewer given => ?_
      obtain ⟨flag, told⟩ := Option.isSome_iff_exists.mp (given.2.truth truthful)
      simp only [told]
      exact Exec.clears_pure _ trivial

theorem clears_texts (values : List Value) (sure : ∀ value ∈ values, value.Sure count) :
    (engine.texts values frame).Clears count frame fun _ _ => True := by
  have collected : (engine.texts values frame).Clears count frame fun _ words => ∀ word ∈ words, True :=
    Exec.clears_collect _ values (fun _ _ _ _ fine => fine) fun more value fewer member =>
      engine.clears_stringify clear frame value (value.sure_more count more fewer (sure value member))
  exact Exec.clears_weaken collected fun _ _ _ _ => trivial

theorem clears_run_builtin (code : Builtin) (invocation : Invocation) (sure : invocation.Sure count) :
    (engine.runBuiltin code invocation).Clears count invocation.frame fun more value => value.Sure more := by
  have text : ∀ {more : Nat} (content : String),
      (Exec.text content).Clears more invocation.frame fun most value => value.Sure most :=
    fun content => Exec.clears_sure (Exec.clears_text content)
  have flag : ∀ {more : Nat} (truth : Bool),
      (Exec.flag truth).Clears more invocation.frame fun most value => value.Sure most :=
    fun truth => Exec.clears_sure (Exec.clears_flag truth)
  have items : ∀ item ∈ invocation.target.items?.getD [], item.Sure count := by
    intro item member
    cases known : invocation.target.items? with
    | none => simp [known] at member
    | some items =>
      rw [known] at member
      exact ⟨invocation.target.tame_items .full sure.target.tame items known item member,
        invocation.target.within_items count sure.target.within items known item member⟩
  have arguments : ∀ value ∈ invocation.arguments.values, value.Sure count := by
    intro value member
    obtain ⟨entry, entryMember, rfl⟩ := List.mem_map.mp member
    exact sure.arguments entry entryMember
  unfold runBuiltin
  cases code with
  | objectText => exact Exec.clears_bind _ (Exec.clears_name_of _) fun _ _ _ _ => text _
  | objectTruth | voidTruth | booleanTruth | arrayTruth => exact flag _
  | functionText =>
    simp only
    cases invocation.target.function? <;> exact text _
  | voidText | numberText | booleanText => exact text _
  | stringText => exact Exec.clears_pure invocation.target sure.target
  | stringLength | arrayLength => exact Exec.clears_number _
  | arrayText =>
    exact Exec.clears_bind _ (engine.clears_texts clear invocation.frame _ items) fun _ _ _ _ => text _
  | promiseText => exact Exec.clears_bind _ (Exec.clears_seen _) fun _ _ _ _ => text _
  | print =>
    refine Exec.clears_bind _ (engine.clears_texts clear invocation.frame _ arguments) fun _ words _ _ => ?_
    exact Exec.clears_bind _ (Exec.clears_write_line _) fun _ _ _ _ => Exec.clears_void
  | exit => exact Exec.clears_bind _ Exec.clears_halt fun _ _ _ _ => Exec.clears_void
  | sleep =>
    simp only [sleep]
    cases ((invocation.arguments.find? "ms").bind Value.number?).bind Number.floor? with
    | some milliseconds => exact Exec.clears_spawn_blocking .void _
    | none => exact Exec.clears_raise _ (Exec.not_stranding _ rfl) (Failure.clean_of _ rfl)

theorem clears_invoke (target function : Value) (arguments : Bindings) (targetSure : target.Sure count)
    (sure : function.Sure count) (argumentsSure : arguments.All (Value.Sure count))
    (callable : function.classId = .function) :
    (engine.invoke target function arguments frame).Clears count frame fun more value => value.Sure more := by
  obtain ⟨hook, content, known⟩ := function.tame_callable .full sure.tame callable
  have ordinary := function.plain_function (function.tame_plain .full sure.tame) content known
  have fits := function.tame_body .full sure.tame content known
  unfold invoke callFunction
  rw [hook]
  simp only [known]
  cases body : content.body with
  | native code =>
    obtain ⟨builtin, rfl⟩ := ordinary code body
    exact clear.native count builtin ⟨target, function, arguments, frame⟩ ⟨targetSure, sure, argumentsSure⟩
  | script lines =>
    simp only
    split
    · exact Exec.clears_spawn_async content.name lines arguments argumentsSure (fits lines body)
    · exact engine.clears_invoke_script clear content.name lines arguments frame argumentsSure (fits lines body)

theorem clears_bind_all (function : String) (parameters : Parameters) (arguments : List Node) (binding : Binding)
    (bound : binding.bound.All (Value.Sure count)) (fits : Node.allStill .full arguments = true) :
    (engine.bindAll function parameters frame binding arguments).Clears count frame
      fun more bindings => bindings.All (Value.Sure more) := by
  induction arguments generalizing binding count with
  | nil => exact Exec.clears_pure binding.bound bound
  | cons argument rest ih =>
    simp only [Node.allStill, Bool.and_eq_true] at fits
    unfold bindAll
    cases placed : binding.place function parameters argument with
    | error cause =>
      have refusal := binding.place_refused function parameters argument cause placed
      cases argument.position? with
      | some position => exact Exec.clears_fail_at cause position refusal
      | none => exact Exec.clears_fail cause refusal
    | ok place =>
      obtain ⟨name, node⟩ := place
      obtain ⟨still, _⟩ := binding.placed_fits function parameters argument .full node name placed
      refine Exec.clears_bind _ (clear.evaluate count node frame (still fits.1)) fun more value fewer sure => ?_
      exact ih _ (binding.all_added _ argument name value (Bindings.sure_more count more _ fewer bound) sure) fits.2

theorem clears_bind_arguments (function : String) (parameters : Parameters) (arguments : List Node)
    (fits : Node.allStill .full arguments = true) :
    (engine.bindArguments function parameters arguments frame).Clears count frame
      fun more bindings => bindings.All (Value.Sure more) := by
  refine Exec.clears_bind _ (engine.clears_bind_all clear frame function parameters arguments .start
    (NameMap.all_empty (Value.Sure count)) fits) fun more bindings _ sure => ?_
  refine Exec.clears_bind _ Exec.clears_void fun most void fewer voidSure => Exec.clears_pure _ ?_
  exact Binding.all_filled _ void parameters bindings voidSure (Bindings.sure_more more most bindings fewer sure)

theorem clears_call (target function : Value) (arguments : List Node) (targetSure : target.Sure count)
    (sure : function.Sure count) (fits : Node.allStill .full arguments = true) :
    (engine.call target function arguments frame).Clears count frame fun more value => value.Sure more := by
  refine Exec.clears_bind _ (Exec.clears_name_of function) fun more className fewer _ => ?_
  have asked : (Exec.read (·.classes.isFunction function)).Clears more frame
      fun _ callable => callable = true → function.classId = .function :=
    Exec.clears_read _ fun machine tame _ callable => ClassTable.intrinsic_callable function (tame.classes ▸ callable)
  refine Exec.clears_bind _ asked fun most callable fewerStill known => ?_
  cases callable with
  | false => exact Exec.clears_stop (.notCallable className) _ rfl
  | true =>
    refine Exec.clears_bind _ (engine.clears_bind_arguments clear frame _ _ arguments fits)
      fun last bindings still bindingsSure => ?_
    have fits := (fewer.trans fewerStill).trans still
    exact engine.clears_invoke clear frame target function bindings (target.sure_more count last fits targetSure)
      (function.sure_more count last fits sure) bindingsSure (known rfl)

end Calls

end Engine

end CoopScript
