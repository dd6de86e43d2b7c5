import CoopScript.Proofs.Rule.Addition
import CoopScript.Proofs.Rule.Engine

set_option autoImplicit false
namespace CoopScript

def Parse.never : Parse Node := fun _ => .stalled

namespace Addition

def held : Addition → Addition
  | statement rule => .statement { rule with parse := fun _ => Parse.never, run := fun _ _ _ => Exec.exhausted }
  | expression rule => .expression
    { rule with
      start? := rule.start?.map fun _ _ _ => Parse.never
      extend? := rule.extend?.map fun _ _ _ _ => Parse.never
      run? := rule.run?.map fun _ _ _ _ => Exec.exhausted }

variable (addition : Addition)

theorem takes_held (place : Place) (cursor : Cursor) : addition.held.Takes place cursor ↔ addition.Takes place cursor := by
  cases addition <;> cases place <;> simp [held, Takes]

theorem runs_held (head : Head) : addition.held.Runs head ↔ addition.Runs head := by
  cases addition <;> cases head <;> simp [held, Runs]

variable (rules : RuleSet)

theorem chosen_held (place : Place) (cursor : Cursor) (taken : addition.Takes place cursor) :
    (addition.held.register rules).grammar.chosen? place cursor = some fun _ => Parse.never := by
  cases addition with
  | statement rule =>
    cases place with
    | statement =>
      have applies : rule.applies cursor.skipSeparators = true := taken
      simp [held, register, RuleSet.registerStatement, RuleSet.grammar, Grammar.chosen?, applies]
    | line | expression | further => cases taken
  | expression rule =>
    cases place with
    | line | statement => cases taken
    | expression minimum =>
      obtain ⟨starts, applies⟩ := taken
      obtain ⟨start, known⟩ := Option.isSome_iff_exists.mp starts
      simp [held, register, RuleSet.registerExpression, RuleSet.grammar, Grammar.chosen?, Grammar.starting?, known, applies]
    | further minimum left =>
      obtain ⟨extends_, tighter, applies⟩ := taken
      obtain ⟨extend, known⟩ := Option.isSome_iff_exists.mp extends_
      simp [held, register, RuleSet.registerExpression, RuleSet.grammar, Grammar.chosen?, Grammar.extending?, known, applies,
        tighter]

theorem statement_run_held (keyword : String) (position : Position) (runs : addition.Runs (.statement keyword position)) :
    (addition.held.register rules).statementRun? keyword = some fun _ _ _ => Exec.exhausted := by
  cases addition with
  | statement rule =>
    have named : rule.name = keyword := runs
    simp [held, register, RuleSet.registerStatement, RuleSet.statementRun?, named]
  | expression rule => cases runs

theorem expression_run_held (name : String) (position : Position) (runs : addition.Runs (.expression name position)) :
    (addition.held.register rules).expressionRun? name = some fun _ _ _ => Exec.exhausted := by
  cases addition with
  | statement rule => cases runs
  | expression rule =>
    obtain ⟨listed, active⟩ := runs
    obtain ⟨run, known⟩ := Option.isSome_iff_exists.mp active
    simp [held, register, RuleSet.registerExpression, RuleSet.expressionRun?, listed, known]

end Addition

namespace RuleSet

def holding (rules : RuleSet) (added : List Addition) : RuleSet := rules.extendedBy (added.map Addition.held)

section Choices
variable (rules : RuleSet) (added : List Addition)

theorem holding_append (last : Addition) :
    rules.holding (added ++ [last]) = last.held.register (rules.holding added) := by
  simp [holding, extendedBy]

-- Of the added rules the last one stands first.
theorem view_holding {β : Type} (view : RuleSet → β) (fires : Addition → Prop) (stopped : β)
    (stops : ∀ addition more, fires addition → view (addition.held.register more) = stopped)
    (passes : ∀ addition more, ¬ fires addition → view (addition.held.register more) = view more) :
    view (rules.holding added) = stopped ∨
      (∀ addition ∈ added, ¬ fires addition) ∧ view (rules.holding added) = view rules := by
  induction added using List.reverseRecOn with
  | nil => exact .inr ⟨nofun, rfl⟩
  | append_singleton front last ih =>
    rw [holding_append]
    by_cases first : fires last
    · exact .inl (stops last _ first)
    rw [passes last _ first]
    refine ih.imp_right fun passed => ⟨fun addition member => ?_, passed.2⟩
    rcases List.mem_append.mp member with early | final
    · exact passed.1 addition early
    · exact List.mem_singleton.mp final ▸ first

theorem chosen_holding (place : Place) (cursor : Cursor) :
    (rules.holding added).grammar.chosen? place cursor = some (fun _ => Parse.never) ∨
    (∀ addition ∈ added, ¬ addition.Takes place cursor) ∧
      (rules.holding added).grammar.chosen? place cursor = rules.grammar.chosen? place cursor :=
  rules.view_holding added (fun more => more.grammar.chosen? place cursor) (fun addition => addition.Takes place cursor) _
    (fun addition more taken => addition.chosen_held more place cursor taken)
    fun addition more refused =>
      addition.held.chosen_registered more place cursor (mt (addition.takes_held place cursor).mp refused)

theorem statement_run_holding (keyword : String) (position : Position) :
    (rules.holding added).statementRun? keyword = some (fun _ _ _ => Exec.exhausted) ∨
    (∀ addition ∈ added, ¬ addition.Runs (.statement keyword position)) ∧
      (rules.holding added).statementRun? keyword = rules.statementRun? keyword :=
  rules.view_holding added (fun more => more.statementRun? keyword) (fun addition => addition.Runs (.statement keyword position))
    _ (fun addition more runs => addition.statement_run_held more keyword position runs)
    fun addition more refused =>
      addition.held.statement_run_registered more keyword position (mt (addition.runs_held _).mp refused)

theorem expression_run_holding (name : String) (position : Position) :
    (rules.holding added).expressionRun? name = some (fun _ _ _ => Exec.exhausted) ∨
    (∀ addition ∈ added, ¬ addition.Runs (.expression name position)) ∧
      (rules.holding added).expressionRun? name = rules.expressionRun? name :=
  rules.view_holding added (fun more => more.expressionRun? name) (fun addition => addition.Runs (.expression name position)) _
    (fun addition more runs => addition.expression_run_held more name position runs)
    fun addition more refused =>
      addition.held.expression_run_registered more name position (mt (addition.runs_held _).mp refused)

end Choices

section Steady
variable (rules : RuleSet) (added : List Addition) (steady : rules.Steady)
include steady

theorem chosen_steady (place : Place) (cursor : Cursor) (step : Reader → Parse Node)
    (chosen : rules.grammar.chosen? place cursor = some step) (reader other : Reader) (below : reader.Below other) :
    (step reader).Below (step other) := by
  cases place with
  | line => cases chosen
  | statement =>
    obtain ⟨form, found, rfl⟩ := Option.map_eq_some_iff.mp chosen
    obtain ⟨rule, member, rfl⟩ := List.mem_map.mp (List.mem_of_find?_eq_some found)
    exact (steady.statement rule member).form.parse reader other below
  | expression minimum =>
    obtain ⟨⟨precedence, start⟩, found, rfl⟩ := Option.map_eq_some_iff.mp chosen
    obtain ⟨form, listed, starts, -⟩ := Grammar.starting_found cursor _ precedence start found
    obtain ⟨rule, member, rfl⟩ := List.mem_map.mp listed
    exact (steady.expression rule member).form.start start starts reader other below precedence
  | further minimum left =>
    obtain ⟨⟨precedence, extend⟩, found, rfl⟩ := Option.map_eq_some_iff.mp chosen
    obtain ⟨form, listed, extends_, -⟩ := Grammar.extending_found minimum cursor _ precedence extend found
    obtain ⟨rule, member, rfl⟩ := List.mem_map.mp listed
    exact (steady.expression rule member).form.extend extend extends_ reader other below left precedence

section Readers
variable (reader other : Reader) (below : reader.Below other)
include below

theorem statement_holding : ((rules.holding added).grammar.statement reader).Below (rules.grammar.statement other) := by
  intro cursor
  rw [Grammar.statement_chosen, Grammar.statement_chosen]
  rcases rules.chosen_holding added .statement cursor with held | ⟨-, same⟩
  · rw [held]
    exact Parse.below_stalled _ _
  · rw [same]
    cases chosen : rules.grammar.chosen? .statement cursor with
    | none => exact below.expression 0 _
    | some step => exact rules.chosen_steady steady .statement cursor step chosen reader other below _

theorem extension_holding (minimum : Nat) (left : Node) :
    ((rules.holding added).grammar.extension reader minimum left).Below (rules.grammar.extension other minimum left) := by
  intro cursor
  rw [Grammar.extension_chosen, Grammar.extension_chosen]
  rcases rules.chosen_holding added (.further minimum left) cursor with held | ⟨-, same⟩
  · rw [held]
    exact Parse.below_stalled _ _
  · rw [same]
    cases chosen : rules.grammar.chosen? (.further minimum left) cursor with
    | none => exact Parse.below_refl _ _
    | some step =>
      exact Parse.below_bind _ _ _ _ (rules.chosen_steady steady _ cursor step chosen reader other below)
        (fun _ => Parse.below_refl _) cursor

theorem expression_holding (minimum : Nat) :
    ((rules.holding added).grammar.expression reader minimum).Below (rules.grammar.expression other minimum) := by
  intro cursor
  rw [Grammar.expression_chosen, Grammar.expression_chosen]
  rcases rules.chosen_holding added (.expression minimum) cursor with held | ⟨-, same⟩
  · rw [held]
    exact Parse.below_stalled _ _
  · rw [same]
    cases chosen : rules.grammar.chosen? (.expression minimum) cursor with
    | none => exact Parse.below_refl _ _
    | some step =>
      have further := rules.extension_holding added steady reader other below minimum
      exact Parse.below_bind _ _ _ _ (rules.chosen_steady steady _ cursor step chosen reader other below)
        (fun left => Parse.below_iterate _ _ further _ _ below.fuel left) cursor

end Readers

theorem readers_holding (fuel : Nat) :
    (Reader.ofFuel (rules.holding added).grammar fuel).Below (Reader.ofFuel rules.grammar fuel) := by
  induction fuel with
  | zero => exact ⟨rfl, Parse.below_stalled _, fun _ => Parse.below_stalled _⟩
  | succ fuel ih =>
    exact ⟨rfl, rules.statement_holding added steady _ _ ih, rules.expression_holding added steady _ _ ih⟩

end Steady

-- The places that are got through while the added rules are held up.
def Through (rules : RuleSet) (added : List Addition) : Nat → Place → Cursor → Prop
  | fuel, .line, cursor => ∃ rounds lines,
    Parse.iterate (Reader.ofFuel (rules.holding added).grammar fuel).programStep rounds lines cursor ≠ .stalled
  | fuel, .statement, cursor => (Reader.ofFuel (rules.holding added).grammar fuel).statement cursor ≠ .stalled
  | fuel, .expression minimum, cursor =>
    (Reader.ofFuel (rules.holding added).grammar fuel).expression minimum cursor ≠ .stalled
  | 0, .further .., _ => False
  | fuel + 1, .further minimum left, cursor => ∃ rounds, Parse.iterate ((rules.holding added).grammar.extension
      (Reader.ofFuel (rules.holding added).grammar fuel) minimum) rounds left cursor ≠ .stalled

section Reading
variable (rules : RuleSet) (added : List Addition)

-- The form that is chosen comes to an end.
theorem through_step (fuel : Nat) (place : Place) (cursor : Cursor) (through : rules.Through added (fuel + 1) place cursor)
    (step : Reader → Parse Node) (held : (rules.holding added).grammar.chosen? place cursor = some step) :
    step (Reader.ofFuel (rules.holding added).grammar fuel) (place.start cursor) ≠ .stalled := by
  intro stalled
  cases place with
  | line => cases held
  | statement =>
    refine through ((Grammar.statement_chosen _ _ _).trans ?_)
    rw [held]
    exact stalled
  | expression minimum =>
    refine through ((Grammar.expression_chosen _ _ _ _).trans ?_)
    simp only [held, Option.elim, Bind.bind, Parse.bind]
    rw [show step _ cursor = _ from stalled]
  | further minimum left =>
    obtain ⟨rounds, ended⟩ := through
    cases rounds with
    | zero => exact ended rfl
    | succ rounds =>
      refine ended ?_
      simp only [Parse.iterate, Grammar.extension_chosen, held, Option.elim, Bind.bind, Parse.bind]
      rw [show step _ cursor = _ from stalled]

theorem through_passed (fuel : Nat) (place : Place) (cursor : Cursor) (through : rules.Through added fuel place cursor) :
    (∀ addition ∈ added, ¬ addition.Takes place cursor) ∧
      (rules.holding added).grammar.chosen? place cursor = rules.grammar.chosen? place cursor := by
  refine (rules.chosen_holding added place cursor).resolve_left fun held => ?_
  cases fuel with
  | zero =>
    cases place with
    | line => cases held
    | statement | expression => exact through rfl
    | further => exact through
  | succ fuel => exact rules.through_step added fuel place cursor through _ held rfl

variable (steady : rules.Steady)
include steady

theorem through_visits : rules.grammar.Visits (rules.Through added) where
  line fuel cursor through inside := by
    obtain ⟨rounds, lines, ended⟩ := through
    cases rounds with
    | zero => exact absurd rfl ended
    | succ rounds =>
      simp only [Parse.iterate, Reader.program_step_inside _ lines cursor inside] at ended
      have here : rules.Through added fuel .statement cursor := fun stalled => ended (by rw [stalled])
      refine ⟨here, fun node rest read => ⟨rounds, node :: lines, ?_⟩⟩
      rw [(rules.readers_holding added steady fuel).statement cursor here] at read
      simp only [read] at ended
      exact ended
  plain fuel cursor through plain stalled := by
    have held := (rules.through_passed added _ _ _ through).2.trans plain
    refine through ((Grammar.statement_chosen _ _ _).trans ?_)
    rw [held]
    exact stalled
  chosen fuel place cursor step through chosen reader alike := by
    have below := rules.readers_holding added steady fuel
    -- The reader does what the rules do, and so it comes to whatever the rules come to when the others are held up.
    have reads : (Reader.ofFuel (rules.holding added).grammar fuel).Below reader :=
      ⟨alike.fuel.trans below.fuel, fun cursor ended => (alike.statement cursor ended).trans (below.statement cursor ended),
        fun minimum cursor ended => (alike.expression minimum cursor ended).trans (below.expression minimum cursor ended)⟩
    have held := (rules.through_passed added _ _ _ through).2.trans chosen
    have ended := rules.through_step added fuel place cursor through step held
    exact (rules.chosen_steady steady place cursor step chosen _ _ reads _ ended).trans
      (rules.chosen_steady steady place cursor step chosen _ _ below _ ended).symm
  begun fuel minimum cursor step left rest through chosen read := by
    have held := (rules.through_passed added _ _ _ through).2.trans chosen
    have ended := rules.through_step added fuel _ cursor through step held
    have same : step (Reader.ofFuel (rules.holding added).grammar fuel) cursor = .ok left rest :=
      (rules.chosen_steady steady _ cursor step chosen _ _ (rules.readers_holding added steady fuel) _ ended).symm.trans read
    refine ⟨(Reader.ofFuel (rules.holding added).grammar fuel).fuel, fun stalled => ?_⟩
    refine through ((Grammar.expression_chosen _ _ _ _).trans ?_)
    simp only [held, Option.elim, Bind.bind, Parse.bind, same]
    exact stalled
  further fuel minimum left cursor step next rest through chosen read := by
    have held := (rules.through_passed added _ _ _ through).2.trans chosen
    have ended := rules.through_step added fuel _ cursor through step held
    have same : step (Reader.ofFuel (rules.holding added).grammar fuel) cursor = .ok next rest :=
      (rules.chosen_steady steady _ cursor step chosen _ _ (rules.readers_holding added steady fuel) _ ended).symm.trans read
    obtain ⟨rounds, going⟩ := through
    cases rounds with
    | zero => exact absurd rfl going
    | succ rounds =>
      refine ⟨rounds, fun stalled => going ?_⟩
      simp only [Parse.iterate, Grammar.extension_chosen, held, Option.elim, Bind.bind, Parse.bind, same]
      exact stalled

theorem held_overlooks (source : String) (file : Option String) (ended : (rules.holding added).parse source file ≠ none) :
    rules.Overlooks added source file := by
  intro tokens cursor read starts
  refine ⟨rules.Through added, rules.through_visits added steady, ⟨Grammar.allowance tokens, [], fun stalled => ended ?_⟩,
    fun fuel place cursor through => (rules.through_passed added fuel place cursor through).1⟩
  have same : (rules.holding added).lexRules = rules.lexRules := rules.extended_rules _
  have program : (rules.holding added).grammar.parse tokens = .stalled := by
    unfold Grammar.parse
    simp only [starts, Reader.program_rounds, Reader.of_fuel_fuel]
    exact stalled
  unfold parse
  simp only [same, read, program]

theorem parse_holding (source : String) (file : Option String) (ended : (rules.holding added).parse source file ≠ none) :
    (rules.holding added).parse source file = rules.parse source file := by
  refine rules.parse_overlooked (added.map Addition.held) source file fun tokens cursor read starts => ?_
  obtain ⟨visited, visits, here, none⟩ := rules.held_overlooks added steady source file ended tokens cursor read starts
  refine ⟨visited, visits, here, fun fuel place cursor reached held member => ?_⟩
  obtain ⟨addition, listed, rfl⟩ := List.mem_map.mp member
  exact mt (addition.takes_held place cursor).mp (none fuel place cursor reached addition listed)

end Reading
end RuleSet

theorem Engine.below_answers (engine other : Engine) (fuel : other.fuel = engine.fuel)
    (answers : ∀ inquiry, (engine.answer inquiry).Below (other.answer inquiry)) : engine.Below other where
  fuel := fuel
  parse source := answers (.parse source)
  evaluate node frame := answers (.evaluate node frame)
  execute node frame := answers (.execute node frame)
  native code invocation := answers (.native code invocation)
  perform action := answers (.perform action)
  body lines frame := answers (.body lines frame)

namespace RuleSet
variable (rules : RuleSet) (added : List Addition) (steady : rules.Steady)

section Answers
include steady
variable (engine other : Engine) (below : engine.Below other)

theorem load_holding (source : String) (file : Option String) :
    ((rules.holding added).load source file).Below (rules.load source file) := by
  by_cases ended : (rules.holding added).parse source file = none
  · unfold load
    rw [ended]
    exact Exec.below_exhausted _
  · unfold load
    rw [rules.parse_holding added steady source file ended]
    exact Exec.below_refl _

include below

theorem evaluate_holding (node : Node) (frame : FrameId) :
    ((rules.holding added).evaluate engine node frame).Below (rules.evaluate other node frame) := by
  unfold evaluate
  cases node.head with
  | expression name position =>
    rcases rules.expression_run_holding added name position with held | ⟨-, same⟩
    · simp only [held]
      exact fun machine ended => absurd rfl ended
    · simp only [same]
      cases known : rules.expressionRun? name with
      | none => exact Exec.below_refl _
      | some run =>
        obtain ⟨rule, listed, runs⟩ := List.exists_of_findSome?_eq_some known
        have member : rule ∈ rules.expressions := (List.mem_filter.mp listed).1
        exact Exec.below_map_failure _ _ _ ((steady.expression rule member).run run runs engine other below node frame)
  | _ => exact Exec.below_refl _

theorem execute_holding (node : Node) (frame : FrameId) :
    ((rules.holding added).execute engine node frame).Below (rules.execute other node frame) := by
  have evaluated := Exec.below_last _ _ (fun value => (pure (some value) : Exec (Option Value)))
    (rules.evaluate_holding added steady engine other below node frame)
  unfold execute
  cases node.head with
  | statement keyword position =>
    rcases rules.statement_run_holding added keyword position with held | ⟨-, same⟩
    · simp only [held]
      exact Exec.below_exhausted _
    · simp only [same]
      cases known : rules.statementRun? keyword with
      | none => exact Exec.below_refl _
      | some run =>
        obtain ⟨rule, found, rfl⟩ := Option.map_eq_some_iff.mp known
        have member : rule ∈ rules.statements := List.mem_of_find?_eq_some found
        exact (steady.statement rule member).run engine other below node frame
  | _ => exact evaluated

theorem answer_holding (inquiry : Inquiry) :
    ((rules.holding added).answer engine inquiry).Below (rules.answer other inquiry) := by
  cases inquiry with
  | parse source => exact rules.load_holding added steady source none
  | evaluate node frame => exact rules.evaluate_holding added steady engine other below node frame
  | execute node frame => exact rules.execute_holding added steady engine other below node frame
  | native code invocation => exact engine.run_native_below other below code invocation
  | perform action => exact engine.perform_action_below other below action
  | body lines frame => exact engine.run_body_below other below lines frame

end Answers

def Answered (fuel : Nat) (inquiry : Inquiry) (machine : Machine) : Prop :=
  ((rules.holding added).engine fuel).answer inquiry machine ≠ .outOfFuel

section Engines
include steady

theorem engine_holding (fuel : Nat) : ((rules.holding added).engine fuel).Below (rules.engine fuel) := by
  induction fuel with
  | zero => exact Engine.exhausted_below _ rfl
  | succ fuel ih =>
    refine Engine.below_answers _ _ ((engine_fuel _ _).trans (engine_fuel _ _).symm) fun inquiry => ?_
    rw [engine_answer, engine_answer]
    exact rules.answer_holding added steady _ _ ih inquiry

-- An engine that does what the rules do where the rules come to something with the others held up.
theorem alike_holding (fuel : Nat) (engine : Engine)
    (alike : (rules.engine fuel).Alike (rules.Answered added fuel) engine) :
    ((rules.holding added).engine fuel).Below engine := by
  have below := rules.engine_holding added steady fuel
  refine Engine.below_answers _ _ (alike.fuel.trans below.fuel) fun inquiry machine ended => ?_
  rw [alike.answer inquiry machine ended]
  cases inquiry with
  | parse source => exact below.parse source machine ended
  | evaluate node frame => exact below.evaluate node frame machine ended
  | execute node frame => exact below.execute node frame machine ended
  | native code invocation => exact below.native code invocation machine ended
  | perform action => exact below.perform action machine ended
  | body lines frame => exact below.body lines frame machine ended

theorem answered_needs {α : Type} (fuel : Nat) (held step : Engine → Exec α) (machine : Machine)
    (rises : ∀ engine other : Engine, engine.Below other → (held engine).Below (step other))
    (ended : held ((rules.holding added).engine fuel) machine ≠ .outOfFuel) :
    rules.Needs (rules.Answered added) fuel step machine := fun engine alike =>
  (rises _ engine (rules.alike_holding added steady fuel engine alike) machine ended).trans
    (rises _ _ (rules.engine_holding added steady fuel) machine ended).symm

theorem answered_asks : rules.Asks (rules.Answered added) := fun fuel inquiry machine answered => by
  refine rules.answered_needs added steady fuel (fun engine => (rules.holding added).answer engine inquiry) _ machine
    (fun engine other below => rules.answer_holding added steady engine other below inquiry) fun exhausted => answered ?_
  rw [engine_answer]
  exact exhausted

theorem answered_passes (fuel : Nat) (inquiry : Inquiry) (machine : Machine)
    (answered : rules.Answered added fuel inquiry machine) : rules.Passes added inquiry := by
  cases fuel with
  | zero => cases inquiry <;> exact absurd rfl answered
  | succ fuel =>
    unfold Answered at answered
    rw [engine_answer] at answered
    -- A node that an added rule runs comes to nothing.
    have evaluates (node : Node) (frame : FrameId) (name : String) (position : Position)
        (head : node.head = .expression name position)
        (ended : (rules.holding added).evaluate ((rules.holding added).engine fuel) node frame machine ≠ .outOfFuel) :
        ∀ addition ∈ added, ¬ addition.Runs (.expression name position) := by
      refine ((rules.expression_run_holding added name position).resolve_left fun held => ended ?_).1
      unfold evaluate
      simp only [head, held]
      rfl
    cases inquiry with
    | parse source =>
      refine rules.held_overlooks added steady source none fun stalled => answered ?_
      simp only [answer, load, stalled]
      rfl
    | evaluate node frame => exact fun name position head => evaluates node frame name position head answered
    | execute node frame =>
      show ∀ addition ∈ added, ¬ addition.Runs node.head
      cases head : node.head with
      | statement keyword position =>
        refine ((rules.statement_run_holding added keyword position).resolve_left fun held => answered ?_).1
        simp only [answer, execute, head, held]
        rfl
      | expression name position =>
        refine evaluates node frame name position head fun exhausted => answered ?_
        simp only [answer, execute, head]
        exact Exec.bind_exhausted _ _ machine exhausted
      | _ => exact fun addition _ runs => by cases addition <;> exact runs
    | native | perform | body => trivial

-- What a script comes to while the added rules are held up, it comes to without them.
theorem held_bypasses (script : Script) (fuel : Nat) (machine : Machine)
    (ended : script.under (rules.holding added) fuel machine ≠ .outOfFuel) : rules.Bypasses added script fuel machine := by
  have bypasses (source : String) (file : Option String) (written : script.source? = some (source, file))
      (ended : ((rules.holding added).load source file >>= ((rules.holding added).engine fuel).evalProgram) machine ≠
        .outOfFuel) : rules.Bypasses added script fuel machine := by
    have reads : (rules.holding added).parse source file ≠ none := fun stalled => ended (by
      simp only [load, stalled]
      rfl)
    refine ⟨fun other name same => ?_, fun other name lines same parsed => ⟨rules.Answered added,
      rules.answered_asks added steady, ?_, rules.answered_passes added steady⟩⟩
    · cases written.symm.trans same
      exact rules.held_overlooks added steady source file reads
    · cases written.symm.trans same
      refine rules.answered_needs added steady fuel (fun engine => engine.evalProgram lines) _ machine
        (fun engine other below => engine.eval_program_below other below lines) fun exhausted => ended ?_
      simp only [load, rules.parse_holding added steady source file reads, parsed]
      exact exhausted
  cases script with
  | text source =>
    cases fuel with
    | zero => exact absurd rfl ended
    | succ fuel => exact bypasses source none rfl ended
  | file name content =>
    cases content with
    | none =>
      have unwritten (source : String) (file : Option String) : (Script.file name none).source? ≠ some (source, file) := by
        simp [Script.source?]
      exact ⟨fun source file written => absurd written (unwritten source file),
        fun source file _ written => absurd written (unwritten source file)⟩
    | some source => exact bypasses source (some name) rfl ended

end Engines

/-- Rules that are put in front of others, whatever the rules are and in whatever order they are registered, change nothing
where they do not come into play. -/
theorem bypassed_same :
    (∀ source file, rules.Overlooks added source file →
      (rules.extendedBy added).parse source file = rules.parse source file) ∧
    ∀ script fuel machine, rules.Bypasses added script fuel machine →
      script.under (rules.extendedBy added) fuel machine = script.under rules fuel machine := by
  refine ⟨rules.parse_overlooked added, fun script fuel machine bypasses => ?_⟩
  have evaluated (source : String) (file : Option String) (written : script.source? = some (source, file))
      (lines : List Node) (parsed : rules.parse source file = some (.ok lines)) :
      ((rules.extendedBy added).engine fuel).evalProgram lines machine = (rules.engine fuel).evalProgram lines machine := by
    obtain ⟨asked, asks, needs, passes⟩ := bypasses.evaluates source file lines written parsed
    exact needs _ (rules.engines_alike added asked asks passes fuel)
  cases script with
  | text source =>
    have same := rules.load_overlooked added source none (bypasses.reads source none rfl)
    cases fuel with
    | zero => rfl
    | succ fuel =>
      show ((rules.extendedBy added).load source none >>= ((rules.extendedBy added).engine (fuel + 1)).evalProgram) machine = _
      rw [same]
      exact rules.loaded_alike added source none (fuel + 1) machine (evaluated source none rfl)
  | file name content =>
    cases content with
    | none => rfl
    | some source =>
      have same := rules.load_overlooked added source (some name) (bypasses.reads source (some name) rfl)
      show ((rules.extendedBy added).load source (some name) >>= ((rules.extendedBy added).engine fuel).evalProgram) machine = _
      rw [same]
      exact rules.loaded_alike added source (some name) fuel machine (evaluated source (some name) rfl)

-- Rules that read `'a' : 'b'` as a pair, and others that are put in front of them.
def paired : RuleSet := customised ["pair"] []

def dormant : List Addition :=
  [.statement Extension.unlessRule, .expression Extension.concatRule, .statement Extension.whileOnceRule,
    .expression Extension.doRule]

def doubling : Script := .text "fn twice(x) \x7b return x : x \x7d if (true) \x7b print(twice('a')) \x7d"

theorem bypassed_same_dormant : ∃ value machine,
    paired.Bypasses dormant doubling 30 (Machine.start .standard) ∧
      (∀ source file, doubling.source? = some (source, file) → paired.Overlooks dormant source file ∧
        (paired.extendedBy dormant).parse source file = paired.parse source file) ∧
      doubling.under (paired.extendedBy dormant) 30 (Machine.start .standard) =
        doubling.under paired 30 (Machine.start .standard) ∧
      doubling.under paired 30 (Machine.start .standard) = .done value machine ∧ machine.output = #["[a, a]"] := by
  obtain ⟨value, machine, ran, shown⟩ := Outcome.gives_done (doubling.under paired 30 (Machine.start .standard))
    (fun _ machine => machine.output == #["[a, a]"]) (by decide +kernel)
  obtain ⟨_, _, held, _⟩ := Outcome.gives_done (doubling.under (paired.holding dormant) 30 (Machine.start .standard))
    (fun _ _ => true) (by decide +kernel)
  have bypasses : paired.Bypasses dormant doubling 30 (Machine.start .standard) :=
    held_bypasses paired dormant (customised_steady ["pair"] []) doubling 30 _
      fun exhausted => by cases held.symm.trans exhausted
  obtain ⟨reads, evaluates⟩ := paired.bypassed_same dormant
  exact ⟨value, machine, bypasses,
    fun source file written => ⟨bypasses.reads source file written, reads source file (bypasses.reads source file written)⟩,
    evaluates doubling 30 _ bypasses, ran, eq_of_beq shown⟩

-- A literal, which no added rule would read and which calls nothing, where a host has loaded a line for an added
-- rule: the rules run the line that waits before the literal, and without the added rule they cannot.
theorem waiting_line_fires : ∃ runner machine,
    standard.Overlooks [.statement Extension.unlessRule] "'a'" none ∧
      standard.parse "'a'" none = some (.ok [.text "a"]) ∧
      Exec.loadProgram [.branch "unless" (.start none) .void [] none] Arena.root (Machine.start .standard) =
        .done runner machine ∧
      (∃ failure after, (Script.text "'a'").under standard 20 machine = .failed failure after) ∧
      ∃ value after, (Script.text "'a'").under (standard.extendedBy [.statement Extension.unlessRule]) 20 machine =
        .done value after := by
  obtain ⟨runner, machine, loaded, facts⟩ := Outcome.gives_done
    (Exec.loadProgram [.branch "unless" (.start none) .void [] none] Arena.root (Machine.start .standard))
    (fun _ machine => ((Script.text "'a'").under standard 20 machine).failsWith (fun _ _ => true) &&
      ((Script.text "'a'").under (standard.extendedBy [.statement Extension.unlessRule]) 20 machine).gives fun _ _ => true)
    (by decide +kernel)
  obtain ⟨fails, gives⟩ := Bool.and_eq_true_iff.mp facts
  obtain ⟨failure, broken, failed, _⟩ := Outcome.fails_with_failed _ _ fails
  obtain ⟨value, after, done, _⟩ := Outcome.gives_done _ _ gives
  have overlooked : standard.Overlooks [.statement Extension.unlessRule] "'a'" none :=
    standard.held_overlooks _ standard_steady "'a'" none (by decide +kernel)
  exact ⟨runner, machine, overlooked, by rfl, loaded, ⟨failure, broken, failed⟩, value, after, done⟩

end RuleSet
end CoopScript
