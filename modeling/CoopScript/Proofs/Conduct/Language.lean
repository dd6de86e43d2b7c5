import CoopScript.Extension.Catalogue
import CoopScript.Proofs.Conduct.Basic

set_option autoImplicit false
namespace CoopScript

namespace Binding
variable (holds : Value → Prop)

theorem all_added (binding : Binding) (argument : Node) (name : String) (value : Value)
    (bound : binding.bound.All holds) (fine : holds value) : (binding.add argument name value).bound.All holds := by
  unfold add
  split <;> exact NameMap.all_insert holds binding.bound bound name value fine

theorem all_filled (void : Value) (parameters : Parameters) (bound : Bindings) (fine : holds void)
    (all : bound.All holds) : (fill void parameters bound).All holds := by
  cases parameters with
  | variadic => exact all
  | named names =>
    unfold fill
    induction names generalizing bound with
    | nil => exact all
    | cons name rest ih =>
      simp only [List.foldl_cons]
      apply ih
      split
      · exact all
      · exact NameMap.all_insert holds bound all name void fine

end Binding

namespace Conduct

structure Suits (conduct : Conduct) (world : conduct.World) (invocation : Invocation) : Prop where
  target : conduct.Good world invocation.target
  function : conduct.Good world invocation.function
  arguments : invocation.arguments.All (conduct.Good world)

-- Engines that run the parts of a script as the conduct has it.
structure Guides (conduct : Conduct) (engine twin : Engine) : Prop where
  fuel : twin.fuel = engine.fuel
  evaluate : ∀ world node frame, conduct.Keeps world frame (engine.evaluate node frame) (twin.evaluate node frame)
  native : ∀ world code invocation, conduct.Admits code → conduct.Suits world invocation →
    conduct.Keeps world invocation.frame (engine.native code invocation) (twin.native code invocation)
  actions : ∀ world frame actions, conduct.Admits (.behaviour (.perform actions)) →
    conduct.Keeps world frame (engine.performAll actions) (twin.performAll actions)
  script : ∀ world name lines arguments caller, arguments.All (conduct.Good world) →
    conduct.Keeps world caller (engine.invokeScript name lines arguments caller)
      (twin.invokeScript name lines arguments caller)
  await : ∀ world frame task, conduct.Keeps world frame (engine.await task) (twin.await task)

-- What the statements of a script do besides.
structure Writes (conduct : Conduct) : Prop where
  function : ∀ {world frame} (name : String) (parameters : List String) (lines : List Node) (isAsync : Bool),
    conduct.Keeps world frame (Exec.function ⟨name, .named parameters, .script lines, isAsync⟩)
      (Exec.function ⟨name, .named parameters, .script lines, isAsync⟩)
  setVariable : ∀ {world frame} (name : String) (value : Value), conduct.Good world value →
    conduct.Keeps world frame (Exec.setVariable frame name value) (Exec.setVariable frame name value)
  setReturn : ∀ {world frame} (value : Value), conduct.Good world value →
    conduct.Keeps world frame (Exec.setReturn frame value) (Exec.setReturn frame value)
  isUnwinding : ∀ {world frame}, conduct.Keeps world frame (Exec.isUnwinding frame) (Exec.isUnwinding frame)

def Blocks (conduct : Conduct) (engine twin : Engine) : Prop :=
  ∀ world lines frame, conduct.Keeps world frame (engine.runBlock lines frame) (twin.runBlock lines frame)

-- Blocks that are run for what they do, whatever they give.
def Nests (conduct : Conduct) (engine twin : Engine) : Prop :=
  ∀ {α : Type} [Valued α] (world : conduct.World) (lines : List Node) (frame : FrameId) (next later : Exec α),
    (∀ more, conduct.Grows world more → conduct.Keeps more frame next later) →
    conduct.Keeps world frame (engine.runBlock lines frame >>= fun _ => next) (twin.runBlock lines frame >>= fun _ => later)

theorem Blocks.nests {conduct : Conduct} {engine twin : Engine} (blocks : conduct.Blocks engine twin) :
    conduct.Nests engine twin := fun world lines frame _ _ keeps =>
  conduct.bind _ _ (blocks world lines frame) fun more _ grown _ => keeps more grown

section Calls
variable {conduct : Conduct} {engine twin : Engine} (guides : conduct.Guides engine twin) {world : conduct.World}
  {frame : FrameId}

theorem unexpected {α : Type} [Valued α] (node : Node) :
    conduct.Keeps world frame (Exec.unexpectedShape node : Exec α) (Exec.unexpectedShape node) :=
  conduct.fail (.unexpectedShape node.label) rfl

namespace Guides
include guides

theorem call_function (invocation : Invocation) (suits : conduct.Suits world invocation) :
    conduct.Keeps world invocation.frame (engine.callFunction invocation) (twin.callFunction invocation) := by
  unfold Engine.callFunction
  cases known : invocation.function.function? with
  | none => exact conduct.fail .noBody rfl
  | some function =>
    simp only
    cases body : function.body with
    | native code =>
      exact guides.native world code invocation (conduct.native suits.function function code known body) suits
    | script lines =>
      simp only
      split
      · exact conduct.spawnAsync function.name lines invocation.arguments suits.arguments
      · exact guides.script world function.name lines invocation.arguments invocation.frame suits.arguments

theorem invoke (target function : Value) (arguments : Bindings) (targetGood : conduct.Good world target)
    (good : conduct.Good world function) (all : arguments.All (conduct.Good world)) :
    conduct.Keeps world frame (engine.invoke target function arguments frame)
      (twin.invoke target function arguments frame) := by
  have suits : conduct.Suits world ⟨target, function, arguments, frame⟩ := ⟨targetGood, good, all⟩
  unfold Engine.invoke
  split
  next => exact guides.call_function ⟨target, function, arguments, frame⟩ suits
  next code hook => exact guides.native world _ ⟨target, function, arguments, frame⟩ (conduct.hook good code hook) suits
  next => exact conduct.fail_named function .noCallHook fun _ => rfl

theorem bind_all (function : String) (parameters : Parameters) (arguments : List Node) (binding : Binding)
    (bound : binding.bound.All (conduct.Good world)) :
    conduct.Keeps world frame (engine.bindAll function parameters frame binding arguments)
      (twin.bindAll function parameters frame binding arguments) := by
  induction arguments generalizing binding world with
  | nil => exact conduct.pure binding.bound bound
  | cons argument rest ih =>
    cases placed : binding.place function parameters argument with
    | error cause =>
      exact conduct.misplaced engine twin function parameters binding argument rest cause placed
    | ok place =>
      unfold Engine.bindAll
      rw [placed]
      refine conduct.bind _ _ (guides.evaluate world place.2 frame) fun more value grown good => ih _ ?_
      exact binding.all_added _ argument place.1 value (fun entry listed => conduct.more grown (bound entry listed)) good

theorem bind_arguments (function : String) (parameters : Parameters) (arguments : List Node) :
    conduct.Keeps world frame (engine.bindArguments function parameters arguments frame)
      (twin.bindArguments function parameters arguments frame) := by
  refine conduct.bind _ _ (guides.bind_all function parameters arguments .start (NameMap.all_empty _))
    fun more bound _ all => ?_
  refine conduct.bind _ _ conduct.void fun most void grown good => conduct.pure _ ?_
  exact Binding.all_filled _ void parameters bound good fun entry listed => conduct.more grown (all entry listed)

theorem call (target function : Value) (arguments : List Node) (targetGood : conduct.Good world target)
    (good : conduct.Good world function) :
    conduct.Keeps world frame (engine.call target function arguments frame) (twin.call target function arguments frame) := by
  refine conduct.look (fun classes _ => classes.nameOf function) _ _ fun className => ?_
  refine conduct.look (fun classes _ => classes.isFunction function) _ _ fun callable => ?_
  cases callable with
  | false => exact conduct.stop (.notCallable className) _ _ rfl
  | true =>
    refine conduct.bind _ _ (guides.bind_arguments _ _ arguments) fun more bindings grown all => ?_
    exact guides.invoke target function bindings (conduct.more grown targetGood) (conduct.more grown good) all

theorem stringify (value : Value) (good : conduct.Good world value) :
    conduct.Keeps world frame (engine.stringify value frame) (twin.stringify value frame) := by
  unfold Engine.stringify
  cases found : value.member? "__str__" with
  | none => exact conduct.look (fun classes _ => classes.nameOf value) _ _ fun _ => conduct.pure _ trivial
  | some method =>
    refine conduct.bind _ _ (guides.invoke value method .empty good (conduct.member good "__str__" method found)
      (NameMap.all_empty _)) fun _ result _ _ => ?_
    cases result.text? with
    | some text => exact conduct.pure text trivial
    | none => exact conduct.fail_named_both value result .badText fun _ _ => rfl

theorem truthy (value : Value) (good : conduct.Good world value) :
    conduct.Keeps world frame (engine.truthy value frame) (twin.truthy value frame) := by
  unfold Engine.truthy
  cases value.flag? with
  | some flag => exact conduct.pure flag trivial
  | none =>
    cases found : value.member? "__bool__" with
    | none => exact conduct.pure true trivial
    | some method =>
      refine conduct.bind _ _ (guides.invoke value method .empty good (conduct.member good "__bool__" method found)
        (NameMap.all_empty _)) fun _ result _ _ => ?_
      cases result.flag? with
      | some flag => exact conduct.pure flag trivial
      | none => exact conduct.fail_named_both value result .badTruth fun _ _ => rfl

theorem texts (values : List Value) (good : ∀ value ∈ values, conduct.Good world value) :
    conduct.Keeps world frame (engine.texts values frame) (twin.texts values frame) :=
  conduct.collect _ _ values fun _ grown value listed => guides.stringify value (conduct.more grown (good value listed))

theorem run_builtin (code : Builtin) (invocation : Invocation) (suits : conduct.Suits world invocation) :
    conduct.Keeps world invocation.frame (engine.runBuiltin code invocation) (twin.runBuiltin code invocation) := by
  have items : ∀ item ∈ invocation.target.items?.getD [], conduct.Good world item := by
    cases known : invocation.target.items? with
    | none => exact fun item listed => by cases listed
    | some items => exact conduct.items suits.target items known
  have arguments : ∀ value ∈ invocation.arguments.values, conduct.Good world value :=
    List.forall_mem_map.mpr suits.arguments
  unfold Engine.runBuiltin
  cases code with
  | objectText =>
    exact conduct.look (fun classes _ => classes.nameOf invocation.target) _ _ fun name => conduct.text _
  | promiseText =>
    exact conduct.look (fun _ tasks => invocation.target.task?.bind tasks.state?) _ _ fun state => conduct.text _
  | objectTruth | voidTruth | booleanTruth | arrayTruth => exact conduct.flag _
  | functionText =>
    simp only
    cases invocation.target.function? <;> exact conduct.text _
  | voidText | numberText | booleanText => exact conduct.text _
  | stringText => exact conduct.pure invocation.target suits.target
  | stringLength | arrayLength => exact conduct.number _
  | arrayText => exact conduct.bind _ _ (guides.texts _ items) fun _ words _ _ => conduct.text _
  | print =>
    refine conduct.bind _ _ (guides.texts _ arguments) fun _ words _ _ => ?_
    exact conduct.bind _ _ (conduct.writeLine _) fun _ _ _ _ => conduct.void
  | exit => exact conduct.bind _ _ conduct.halt fun _ _ _ _ => conduct.void
  | sleep =>
    simp only [Engine.sleep]
    split
    · exact conduct.spawnBlocking .void _
    · exact conduct.fail .badDuration rfl

theorem run_behaviour (code : Behaviour Value) (invocation : Invocation) (admits : conduct.Admits (.behaviour code))
    (suits : conduct.Suits world invocation) :
    conduct.Keeps world invocation.frame (engine.runBehaviour code invocation) (twin.runBehaviour code invocation) := by
  have argument : ∀ name value, invocation.arguments.find? name = some value → conduct.Good world value :=
    NameMap.all_found _ invocation.arguments suits.arguments
  cases code with
  | const value => exact conduct.pure value (conduct.constant admits world)
  | target => exact conduct.pure _ suits.target
  | function => exact conduct.pure _ suits.function
  | argument name =>
    simp only [Engine.runBehaviour]
    split
    next value found => exact conduct.pure value (argument name value found)
    next => exact conduct.void
  | arguments => exact conduct.array _ (List.forall_mem_map.mpr suits.arguments)
  | echo =>
    have entries : conduct.Keeps world invocation.frame
        (Exec.collect (engine.echoEntry invocation.frame) invocation.arguments.entries)
        (Exec.collect (twin.echoEntry invocation.frame) invocation.arguments.entries) :=
      conduct.collect _ _ _ fun _ grown entry listed =>
        conduct.bind _ _ (guides.stringify entry.2 (conduct.more grown (suits.arguments entry listed))) fun _ _ _ _ =>
          conduct.pure _ trivial
    exact conduct.bind _ _ entries fun _ words _ _ => conduct.text _
  | apply name =>
    simp only [Engine.runBehaviour]
    split
    next function found =>
      have good := argument name function found
      exact guides.invoke function function .empty good good (NameMap.all_empty _)
    next => exact conduct.void
  | perform actions =>
    exact conduct.bind _ _ (guides.actions world invocation.frame actions admits) fun _ _ _ _ => conduct.void
  | fail kind message => exact conduct.fail (.raised kind message) rfl

theorem run_native (code : Native Value) (invocation : Invocation) (admits : conduct.Admits code)
    (suits : conduct.Suits world invocation) :
    conduct.Keeps world invocation.frame (engine.runNative code invocation) (twin.runNative code invocation) := by
  cases code with
  | builtin code => exact guides.run_builtin code invocation suits
  | behaviour code => exact guides.run_behaviour code invocation admits suits

end Guides

end Calls

section Rules
variable {conduct : Conduct} {engine twin : Engine} (guides : conduct.Guides engine twin) {world : conduct.World}
  (node : Node) (frame : FrameId)

section Expressions
include guides

theorem keeps_await : conduct.Keeps world frame (ExpressionRule.runAwait engine node frame)
    (ExpressionRule.runAwait twin node frame) := by
  cases node with
  | await name position operand =>
    refine conduct.bind _ _ (guides.evaluate world operand frame) fun more value _ good => ?_
    cases value.task? with
    | some task => exact guides.await more frame task
    | none => exact conduct.pure value good
  | _ => exact unexpected _

theorem keeps_bracket : conduct.Keeps world frame (ExpressionRule.runBracket engine node frame)
    (ExpressionRule.runBracket twin node frame) := by
  cases node with
  | group name position inner => exact guides.evaluate world inner frame
  | call name position callee arguments =>
    have plainly : conduct.Keeps world frame (do
        let function ← engine.evaluate callee frame
        engine.call function function arguments frame) (do
        let function ← twin.evaluate callee frame
        twin.call function function arguments frame) :=
      conduct.bind _ _ (guides.evaluate world callee frame) fun _ function _ good =>
        guides.call function function arguments good good
    cases callee with
    | access name position object member =>
      refine conduct.bind _ _ (guides.evaluate world object frame) fun _ target _ targetGood => ?_
      refine conduct.bind _ _ (conduct.member_of targetGood member) fun _ function grown good => ?_
      exact guides.call target function arguments (conduct.more grown targetGood) good
    | _ => exact plainly
  | _ => exact unexpected _

theorem keeps_array : conduct.Keeps world frame (ExpressionRule.runArray engine node frame)
    (ExpressionRule.runArray twin node frame) := by
  cases node with
  | array name position items =>
    refine conduct.bind _ _ (conduct.collect _ _ items fun more _ item _ => guides.evaluate more item frame)
      fun _ values _ good => ?_
    exact conduct.array values good
  | index name position object place =>
    refine conduct.bind _ _ (guides.evaluate world object frame) fun more value _ good => ?_
    refine conduct.bind _ _ (guides.evaluate more place frame) fun _ slot grown _ => ?_
    exact conduct.item_at (conduct.more grown good) slot
  | _ => exact unexpected _

theorem keeps_access : conduct.Keeps world frame (ExpressionRule.runAccess engine node frame)
    (ExpressionRule.runAccess twin node frame) := by
  cases node with
  | access name position object member =>
    exact conduct.bind _ _ (guides.evaluate world object frame) fun _ _ _ good => conduct.member_of good member
  | _ => exact unexpected _

theorem keeps_unary : conduct.Keeps world frame (ExpressionRule.runUnary engine node frame)
    (ExpressionRule.runUnary twin node frame) := by
  cases node with
  | unary name position op operand =>
    refine conduct.bind _ _ (guides.evaluate world operand frame) fun _ value _ good => ?_
    cases op with
    | not => exact conduct.bind _ _ (guides.truthy value good) fun _ _ _ _ => conduct.flag _
    | negate =>
      simp only
      cases value.number? with
      | some x => exact conduct.number _
      | none => exact conduct.fail_named value .notNegatable fun _ => rfl
  | _ => exact unexpected _

theorem keeps_binary : conduct.Keeps world frame (ExpressionRule.runBinary engine node frame)
    (ExpressionRule.runBinary twin node frame) := by
  cases node with
  | binary name position op left right =>
    refine conduct.bind _ _ (guides.evaluate world left frame) fun more value _ good => ?_
    cases op with
    | both | either =>
      refine conduct.bind _ _ (guides.truthy value good) fun most truth grown _ => ?_
      have decided : conduct.Keeps most frame (Pure.pure value) (Pure.pure value) :=
        conduct.pure value (conduct.more grown good)
      cases truth <;> first | exact decided | exact guides.evaluate most right frame
    | _ =>
      refine conduct.bind _ _ (guides.evaluate more right frame) fun _ later grown laterGood => ?_
      exact conduct.operate (conduct.more grown good) laterGood _
  | _ => exact unexpected _

theorem keeps_assign : conduct.Keeps world frame (ExpressionRule.runAssign engine node frame)
    (ExpressionRule.runAssign twin node frame) := by
  cases node with
  | assign name position target value =>
    refine conduct.bind _ _ (guides.evaluate world value frame) fun _ result _ good => ?_
    exact conduct.bind _ _ (conduct.assign target result good) fun _ _ grown _ =>
      conduct.pure result (conduct.more grown good)
  | _ => exact unexpected _

theorem keeps_concat : conduct.Keeps world frame (Extension.runConcat engine node frame)
    (Extension.runConcat twin node frame) := by
  unfold Extension.runConcat
  split
  next left right =>
    refine conduct.bind _ _ (guides.evaluate world left frame) fun _ value _ good => ?_
    refine conduct.bind _ _ (guides.stringify value good) fun more first _ _ => ?_
    refine conduct.bind _ _ (guides.evaluate more right frame) fun _ later _ laterGood => ?_
    exact conduct.bind _ _ (guides.stringify later laterGood) fun _ _ _ _ => conduct.text _
  next => exact conduct.text _

end Expressions

section Statements

-- A statement by itself gives no value.
theorem silent {more : conduct.World} :
    conduct.Keeps more frame (Pure.pure none : Exec (Option Value)) (Pure.pure none) :=
  conduct.pure none fun _ none => by cases none

theorem nested (nests : conduct.Nests engine twin) (lines : List Node) :
    conduct.Keeps world frame (do let _ ← engine.runBlock lines frame; return none : Exec (Option Value))
      (do let _ ← twin.runBlock lines frame; return none) :=
  nests world lines frame _ _ fun _ _ => silent frame

variable (writes : conduct.Writes) (nests : conduct.Nests engine twin)

include writes in
theorem keeps_function (engine twin : Engine) : conduct.Keeps world frame (StatementRule.runFunction engine node frame)
    (StatementRule.runFunction twin node frame) := by
  cases node with
  | function name position title parameters isAsync body =>
    refine conduct.bind _ _ (writes.function title parameters body isAsync) fun _ function _ good => ?_
    exact conduct.bind _ _ (writes.setVariable title function good) fun _ _ _ _ => silent frame
  | _ => exact unexpected _

include writes guides in
theorem keeps_return : conduct.Keeps world frame (StatementRule.runReturn engine node frame)
    (StatementRule.runReturn twin node frame) := by
  have gives : ∀ (more : conduct.World) (value : Value), conduct.Good more value →
      conduct.Keeps more frame (do Exec.setReturn frame value; return none : Exec (Option Value))
        (do Exec.setReturn frame value; return none) := fun more value good =>
    conduct.bind _ _ (writes.setReturn value good) fun _ _ _ _ => silent frame
  cases node with
  | giveBack name position value =>
    cases value with
    | some value => exact conduct.bind _ _ (guides.evaluate world value frame) fun more value _ => gives more value
    | none => exact conduct.bind _ _ conduct.void fun more value _ => gives more value
  | _ => exact unexpected _

section Branches
include guides nests

theorem keeps_if : conduct.Keeps world frame (StatementRule.runIf engine node frame)
    (StatementRule.runIf twin node frame) := by
  cases node with
  | branch name position condition whenTrue whenFalse =>
    refine conduct.bind _ _ (guides.evaluate world condition frame) fun _ value _ good => ?_
    refine conduct.bind _ _ (guides.truthy value good) fun _ truth _ _ => ?_
    cases truth with
    | true => exact nested frame nests whenTrue
    | false =>
      cases whenFalse with
      | some lines => exact nested frame nests lines
      | none => exact silent frame
  | _ => exact unexpected _

include writes in
theorem keeps_loop_step (condition : Node) (body : List Node) :
    conduct.Keeps world frame (StatementRule.loopStep engine condition body frame)
      (StatementRule.loopStep twin condition body frame) := by
  have ends : ∀ {more}, conduct.Keeps more frame (Pure.pure (.inr none) : Exec (Unit ⊕ Option Value)) (Pure.pure (.inr none)) :=
    conduct.pure _ fun _ none => by cases none
  refine conduct.bind _ _ writes.isUnwinding fun more unwinding _ _ => ?_
  cases unwinding with
  | true => exact ends
  | false =>
    refine conduct.bind _ _ (guides.evaluate more condition frame) fun _ value _ good => ?_
    refine conduct.bind _ _ (guides.truthy value good) fun most truth _ _ => ?_
    cases truth with
    | false => exact ends
    | true => exact nests most body frame _ _ fun _ _ => conduct.pure _ trivial

include writes in
theorem keeps_while : conduct.Keeps world frame (StatementRule.runWhile engine node frame)
    (StatementRule.runWhile twin node frame) := by
  cases node with
  | loop name position condition body =>
    unfold StatementRule.runWhile
    simp only
    rw [guides.fuel]
    exact conduct.iterate _ _ (fun _ _ => keeps_loop_step guides frame writes nests condition body) engine.fuel ()
  | _ => exact unexpected _

theorem keeps_unless : conduct.Keeps world frame (Extension.runUnless engine node frame)
    (Extension.runUnless twin node frame) := by
  unfold Extension.runUnless
  split
  next condition lines _ =>
    refine conduct.bind _ _ (guides.evaluate world condition frame) fun _ value _ good => ?_
    refine conduct.bind _ _ (guides.truthy value good) fun _ truth _ _ => ?_
    cases truth with
    | true => exact silent frame
    | false => exact nested frame nests lines
  next => exact silent frame

end Branches

include nests in
theorem keeps_block : conduct.Keeps world frame (StatementRule.runBlock engine node frame)
    (StatementRule.runBlock twin node frame) := by
  cases node with
  | block name position body => exact nested frame nests body
  | _ => exact silent frame

include guides in
theorem keeps_once (blocks : conduct.Blocks engine twin) :
    conduct.Keeps world frame (Extension.runOnce engine node frame) (Extension.runOnce twin node frame) := by
  unfold Extension.runOnce
  split
  next condition body =>
    refine conduct.bind _ _ (guides.evaluate world condition frame) fun _ value _ good => ?_
    refine conduct.bind _ _ (guides.truthy value good) fun most truth _ _ => ?_
    cases truth with
    | true => exact blocks most body frame
    | false => exact silent frame
  next => exact silent frame

end Statements

end Rules

def Evaluates (conduct : Conduct) (rules : RuleSet) (engine twin : Engine) : Prop :=
  ∀ rule ∈ rules.expressions, ∀ run, rule.run? = some run → ∀ world node frame,
    conduct.Keeps world frame (run engine node frame) (run twin node frame)

def Executes (conduct : Conduct) (rules : RuleSet) (engine twin : Engine) : Prop :=
  ∀ rule ∈ rules.statements, ∀ world node frame,
    conduct.Keeps world frame (rule.run engine node frame) (rule.run twin node frame)

end Conduct

namespace RuleSet

section Listed
variable (rules : RuleSet) (name : String)

theorem extend_statement (rule : StatementRule) (listed : rule ∈ (rules.extend name).statements) :
    rule ∈ rules.statements ∨ rule = Extension.unlessRule ∨ rule = Extension.whileOnceRule := by
  unfold extend at listed
  split at listed
  · exact (List.mem_cons.mp listed).symm.imp_right .inl
  · exact (List.mem_cons.mp listed).symm.imp_right .inr
  all_goals exact .inl listed

-- Apart from one, the expressions that can be added are only read.
theorem extend_expression (rule : ExpressionRule) (listed : rule ∈ (rules.extend name).expressions) :
    rule ∈ rules.expressions ∨ rule = Extension.concatRule ∨ rule.run? = none := by
  unfold extend at listed
  split at listed
  · exact .inl listed
  · exact .inl listed
  · exact (List.mem_cons.mp listed).symm.imp_right .inl
  iterate 5
    rcases List.mem_cons.mp listed with rfl | known
    · exact .inr (.inr rfl)
    · exact .inl known
  exact .inl listed

end Listed

section Customised
variable (extensions : List String) (lexRules : List LexRule)

theorem lex_rules_apart (rules : RuleSet) : (lexRules.foldl registerLexRule rules).statements = rules.statements ∧
    (lexRules.foldl registerLexRule rules).expressions = rules.expressions :=
  List.foldlRecOn (motive := fun more : RuleSet => more.statements = rules.statements ∧ more.expressions = rules.expressions)
    lexRules registerLexRule ⟨rfl, rfl⟩ fun _ same _ _ => same

theorem customised_statement (rule : StatementRule) (listed : rule ∈ (customised extensions lexRules).statements) :
    rule ∈ standard.statements ∨ rule = Extension.unlessRule ∨ rule = Extension.whileOnceRule := by
  unfold customised at listed
  rw [(lex_rules_apart lexRules _).1] at listed
  revert listed
  refine List.foldlRecOn (motive := fun rules : RuleSet => rule ∈ rules.statements → _) extensions extend .inl ?_
  exact fun rules known name _ listed => (rules.extend_statement name rule listed).elim known .inr

theorem customised_expression (rule : ExpressionRule) (listed : rule ∈ (customised extensions lexRules).expressions) :
    rule ∈ standard.expressions ∨ rule = Extension.concatRule ∨ rule.run? = none := by
  unfold customised at listed
  rw [(lex_rules_apart lexRules _).2] at listed
  revert listed
  refine List.foldlRecOn (motive := fun rules : RuleSet => rule ∈ rules.expressions → _) extensions extend .inl ?_
  exact fun rules known name _ listed => (rules.extend_expression name rule listed).elim known .inr

end Customised

end RuleSet

namespace Conduct

section Sets
variable {conduct : Conduct} {engine twin : Engine} (guides : conduct.Guides engine twin)

section Standard

include guides in
theorem standard_evaluates : conduct.Evaluates .standard engine twin := by
  intro rule listed run runs world node frame
  change rule ∈ ExpressionRule.standard at listed
  simp only [ExpressionRule.standard, List.mem_cons, List.not_mem_nil, or_false] at listed
  rcases listed with rfl | rfl | rfl | rfl | rfl | rfl | rfl | rfl | rfl | rfl | rfl | rfl | rfl | rfl | rfl <;>
    cases runs
  · exact keeps_await guides node frame
  · exact keeps_bracket guides node frame
  · exact keeps_array guides node frame
  · exact keeps_access guides node frame
  · exact keeps_unary guides node frame
  iterate 6 exact keeps_binary guides node frame
  exact keeps_assign guides node frame

include guides in
theorem standard_executes (writes : conduct.Writes) (nests : conduct.Nests engine twin) :
    conduct.Executes .standard engine twin := by
  intro rule listed world node frame
  change rule ∈ StatementRule.standard at listed
  simp only [StatementRule.standard, List.mem_cons, List.not_mem_nil, or_false] at listed
  rcases listed with rfl | rfl | rfl | rfl | rfl
  · exact keeps_function node frame writes engine twin
  · exact keeps_return guides node frame writes
  · exact keeps_if guides node frame nests
  · exact keeps_while guides node frame writes nests
  · exact keeps_block node frame nests

end Standard

section Customised
variable (extensions : List String) (lexRules : List LexRule)
include guides

theorem customised_evaluates : conduct.Evaluates (.customised extensions lexRules) engine twin := by
  intro rule listed run runs
  rcases RuleSet.customised_expression extensions lexRules rule listed with known | rfl | none
  · exact standard_evaluates guides rule known run runs
  · cases runs
    exact fun _ node frame => keeps_concat guides node frame
  · cases none.symm.trans runs

theorem customised_executes (writes : conduct.Writes) (blocks : conduct.Blocks engine twin) :
    conduct.Executes (.customised extensions lexRules) engine twin := by
  intro rule listed world node frame
  rcases RuleSet.customised_statement extensions lexRules rule listed with known | rfl | rfl
  · exact standard_executes guides writes blocks.nests rule known world node frame
  · exact keeps_unless guides node frame blocks.nests
  · exact keeps_once guides node frame blocks

end Customised

end Sets

section Nodes
variable {conduct : Conduct} {engine twin : Engine} {rules : RuleSet} (evaluates : conduct.Evaluates rules engine twin)
  (world : conduct.World) (node : Node) (frame : FrameId)

include evaluates in
theorem Evaluates.keeps :
    conduct.Keeps world frame (rules.evaluate engine node frame) (rules.evaluate twin node frame) := by
  have placed : ∀ step other position, node.position? = some position →
      rules.evaluate engine node frame = step.mapFailure (·.orPosition (some position)) →
      rules.evaluate twin node frame = other.mapFailure (·.orPosition (some position)) → conduct.Keeps world frame step other →
      conduct.Keeps world frame (rules.evaluate engine node frame) (rules.evaluate twin node frame) :=
    conduct.placed rules engine twin node
  unfold RuleSet.evaluate at placed ⊢
  cases head : node.head with
  | number value => exact conduct.number value
  | text value => exact conduct.text value
  | void => exact conduct.void
  | reference name position =>
    simp only [head] at placed
    exact placed _ _ position (by simp only [Node.position?, head]) rfl rfl (conduct.lookUp name)
  | expression name position =>
    cases found : rules.expressionRun? name with
    | none =>
      simp only [found]
      exact conduct.failAt (.noExpressionRule name) position rfl
    | some run =>
      obtain ⟨rule, listed, runs⟩ := List.exists_of_findSome?_eq_some found
      simp only [head, found] at placed ⊢
      exact placed _ _ position (by simp only [Node.position?, head]) rfl rfl
        (evaluates rule (List.mem_filter.mp listed).1 run runs world node frame)
  | statement keyword position => exact conduct.failAt (.statementAsValue keyword) position rfl

include evaluates in
theorem Executes.keeps (executes : conduct.Executes rules engine twin) :
    conduct.Keeps world frame (rules.execute engine node frame) (rules.execute twin node frame) := by
  unfold RuleSet.execute
  split
  next keyword position _ =>
    split
    next run found =>
      obtain ⟨rule, listed, rfl⟩ := Option.map_eq_some_iff.mp found
      exact executes rule (List.mem_of_find?_eq_some listed) world node frame
    next => exact conduct.failAt (.noStatementRule keyword) position rfl
  next =>
    exact conduct.bind _ _ (evaluates.keeps world node frame) fun _ value _ good =>
      conduct.pure (some value) fun _ same => Option.some.inj same ▸ good

end Nodes

end Conduct
end CoopScript
