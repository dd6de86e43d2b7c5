import CoopScript.Proofs.Layout.Joint
import CoopScript.Proofs.Round.Conclude

set_option autoImplicit false
namespace CoopScript

open Lens (placeless)

section Apart

def Machine.renumbered (count : Nat) (machine : Machine) : Machine :=
  { machine with runnerCount := machine.runnerCount + count }

namespace Outcome
variable {α : Type}

def changed (change : Machine → Machine) : Outcome α → Outcome α
  | .done value machine => .done value (change machine)
  | .failed failure machine => .failed failure (change machine)
  | .outOfFuel => .outOfFuel

theorem pass_changed (outcome : Outcome α) (delay : Nat) : outcome.pass delay = outcome.changed (·.pass delay) := by
  cases outcome <;> rfl

theorem leaves_changed (outcome : Outcome α) (change : Machine → Machine) (after : Machine)
    (left : (outcome.changed change).Leaves after) : ∃ last, outcome.Leaves last ∧ after = change last := by
  cases outcome with
  | done value last => exact ⟨last, .inl ⟨value, rfl⟩, (done_leaves _ _ after).mp left⟩
  | failed failure last => exact ⟨last, .inr ⟨failure, rfl⟩, (failed_leaves _ _ after).mp left⟩
  | outOfFuel => exact absurd left (exhausted_leaves after)

end Outcome

def Machine.unnumbered (machine : Machine) : Machine := { machine with runnerCount := 0 }

namespace Engine
variable (fuel : Nat) (lines : List Node) (held : List FrameId) (machine : Machine) (core : machine.Core held)
include core

theorem follow_unnumbered : (RuleSet.standard.engine fuel).follow lines machine =
    ((RuleSet.standard.engine fuel).follow lines machine.unnumbered).changed (·.renumbered machine.runnerCount) := by
  let lens := Lens.behind [] machine.runnerCount (List.forall_mem_nil _)
  have before := Machine.core_renumbered core 0
  have through : Exec.Through lens (fun _ => True) _ _ _ _ :=
    follow_through lines (RuleSet.through_engine lens fuel fuel (Nat.le_refl _) fun _ => rfl)
  have ended := Lens.through_ending through rfl trivial trivial machine.unnumbered before.fits
  have same : lens.machine machine.unnumbered = machine := by
    rw [Lens.behind_machine _ _ _ machine.unnumbered before.ready before.runners, ← core.runners]
    simp [Machine.unnumbered]
  rw [lens.lines_sharp rfl, same] at ended
  rw [ended]
  cases ran : (RuleSet.standard.engine fuel).follow lines machine.unnumbered with
  | done result after =>
    have later := (core_follow fuel held machine.unnumbered before lines after (.inl ⟨_, ran⟩)).1
    rw [Lens.ending, Lens.behind_ran, Lens.behind_machine _ _ _ after later.ready later.runners, ← later.runners]
    rfl
  | failed failure after =>
    have later := (core_follow fuel held machine.unnumbered before lines after (.inr ⟨_, ran⟩)).1
    rw [Lens.ending, lens.failure_sharp rfl, Lens.behind_machine _ _ _ after later.ready later.runners, ← later.runners]
    rfl
  | outOfFuel => rfl

variable (contained : machine.Contained)
include contained

theorem follow_apart (after : Machine) (few : after.tasks.count ≤ machine.tasks.count)
    (left : ((RuleSet.standard.engine fuel).follow lines (machine.unnumbered.pass Machine.blockTime)).Leaves after ∨
      ((RuleSet.standard.engine fuel).follow lines machine).Leaves after) :
    ∃ ended : Outcome (Option Value × List Node),
      (RuleSet.standard.engine fuel).follow lines (machine.unnumbered.pass Machine.blockTime) = ended.pass Machine.blockTime ∧
        (RuleSet.standard.engine fuel).follow lines machine = ended.changed (·.renumbered machine.runnerCount) ∧
        ∃ last, ended.Leaves last ∧ last.tasks.count = machine.tasks.count := by
  have before := Machine.core_renumbered core 0
  have apart : machine.unnumbered.Contained := Machine.fits_same contained _ rfl rfl rfl rfl rfl (Nat.le_refl _)
  have numbered := follow_unnumbered fuel lines held machine core
  rcases left with left | left
  · obtain ⟨ended, first, second, _, counted⟩ :=
      follow_untimed fuel lines machine.unnumbered before.fits apart Machine.blockTime 0 after left few
    rw [Outcome.pass_none] at second
    rw [first, Outcome.pass_changed] at left
    obtain ⟨last, gone, rfl⟩ := ended.leaves_changed _ after left
    exact ⟨ended, first, second ▸ numbered, last, gone, counted⟩
  · rw [numbered] at left
    obtain ⟨last, ended, rfl⟩ := Outcome.leaves_changed _ _ after left
    obtain ⟨outcome, first, second, _, same⟩ :=
      follow_untimed fuel lines machine.unnumbered before.fits apart 0 Machine.blockTime last ended few
    rw [Outcome.pass_none] at first
    exact ⟨outcome, second, first ▸ numbered, last, first ▸ ended, same⟩

end Engine
end Apart

-- Machines that have printed the same and in which scripts share the same names, up to the places inside of
-- functions.
structure Machine.Shows (machine other : Machine) : Prop where
  output : machine.output = other.output
  bindings : machine.rootBindings.map placeless.bindings = other.rootBindings.map placeless.bindings

/-- Evaluations that end in the same value, or fail in the same way, and have printed and bound the same, all up to places. -/
inductive Outcome.Agrees : Outcome Value → Outcome Value → Prop
  | done (value other : Value) (machine twin : Machine) (values : placeless.value value = placeless.value other)
      (shows : machine.Shows twin) : Agrees (.done value machine) (.done other twin)
  | failed (failure other : Failure) (machine twin : Machine)
      (causes : ∀ cause, failure.HasCause cause ↔ other.HasCause cause)
      (places : placeless.failure failure = placeless.failure other) (shows : machine.Shows twin) :
      Agrees (.failed failure machine) (.failed other twin)

theorem Outcome.agrees_alike (first second third : Outcome Value) (agrees : first.Agrees second) (alike : second.Alike third) :
    first.Agrees third := by
  cases agrees with
  | done value other machine twin values shows =>
    cases alike with
    | done _ last _ final later machines =>
      exact .done value last machine final (values.trans later)
        ⟨shows.output.trans machines.output, shows.bindings.trans machines.bindings⟩
  | failed failure other machine twin causes places shows =>
    cases alike with
    | failed _ last _ final further later machines =>
      exact .failed failure last machine final (fun cause => (causes cause).trans (further cause)) (places.trans later)
        ⟨shows.output.trans machines.output, shows.bindings.trans machines.bindings⟩

theorem Machine.closing_shows (machine other : Machine) (id key : RunnerId) (ready others : List Line)
    (output : machine.output = other.output) (frames : machine.frames = other.frames) :
    (machine.closing id ready).Shows (other.closing key others) := by
  refine ⟨output, ?_⟩
  have same : (machine.closing id ready).frames = (other.closing key others).frames :=
    congrArg (fun arena => (arena.release Arena.root).1) frames
  rw [rootBindings, rootBindings, same]

-- The machine between the pieces, with a new program begun, is the one that the lines of the first have left.
theorem second_opens (core : Machine) (id : RunnerId) {held : List FrameId} (rests : core.Core (Arena.root :: held))
    (up : core.halted = false) (frames : Arena) (retained : (core.closing id []).frames.retain Arena.root = .ok frames) :
    (core.closing id []).opening frames = core.unnumbered.pass Machine.blockTime := by
  -- The hold that the first program has given up is taken again by the second.
  have again : (core.closing id []).frames.retain Arena.root = .ok core.frames := by
    refine Arena.retain_released core.frames (core.registered.map Prod.snd ++ core.asyncFrames ++ held) Arena.root ?_
    refine Arena.kept_counts _ _ _ rests.sound.ledger fun other => ?_
    simp only [Stage.count_owners, List.count_cons, List.count_append, List.map_nil, List.count_nil, beq_iff_eq]
    omega
  obtain rfl := Except.ok.inj (retained.symm.trans again)
  simp [Machine.opening, Machine.closing, Machine.unnumbered, Machine.pass, up, rests.ready, rests.runners]

theorem Outcome.concluded_agree (ended : Outcome (Option Value × List Node)) (time count few : Nat) (first second : RunnerId)
    (last : Option Value) (parts whole : Outcome Value)
    (valued : ∀ ran machine, ended = .done ran machine → ran.1.isSome = true)
    (counted : ∃ machine, ended.Leaves machine ∧ machine.tasks.count = few)
    (step : Exec (Option Value × List Node)) (core : Machine) (same : step core = ended.changed (·.renumbered count))
    (partsConcluded : (ended.pass time).Concluded first none few parts)
    (wholeConcluded : ((step >>= fun ran => Pure.pure (ran.1.or last, ran.2) : Exec (Option Value × List Node)) core).Concluded
      second none few whole) : parts.Agrees whole := by
  obtain ⟨machine, left, counted⟩ := counted
  cases ended with
  | done ran after =>
    obtain rfl := (done_leaves _ _ machine).mp left
    -- Without a value of its own the second piece would end in void, the whole in the value of the first.
    obtain ⟨_ | value, rest⟩ := ran
    · cases valued _ _ rfl
    · rw [Exec.bind_done _ _ _ _ _ same] at wholeConcluded
      rw [concluded_done _ rest (machine.pass time) parts counted.le partsConcluded,
        concluded_done _ rest (machine.renumbered count) whole counted.le wholeConcluded]
      exact .done _ _ _ _ rfl (Machine.closing_shows _ _ _ _ _ _ rfl rfl)
  | failed failure after =>
    obtain rfl := (failed_leaves _ _ machine).mp left
    rw [Exec.bind_failed _ _ _ _ _ same] at wholeConcluded
    rw [concluded_failed failure (machine.pass time) parts counted.le partsConcluded,
      concluded_failed failure (machine.renumbered count) whole counted.le wholeConcluded]
    exact .failed _ _ _ _ (fun _ => Iff.rfl) rfl (Machine.closing_shows _ _ _ _ _ _ rfl rfl)
  | outOfFuel => exact absurd left (exhausted_leaves machine)

section Pieces
variable {config : Config} {stage : Stage} (attained : Attained config stage) (quiescent : stage.Quiescent)
  (fuel : Nat) (lines others : List Node) (enough : lines.length + others.length + stage.machine.config.idleLimit + 1 < fuel)
  (value : Value) (middle : Machine)
  (done : (RuleSet.standard.engine fuel).evalProgram lines stage.machine = .done value middle) (up : middle.halted = false)
  (few : middle.tasks.count = stage.machine.tasks.count)
include attained quiescent enough done up few

theorem first_piece : ∃ frames last core, stage.machine.frames.retain Arena.root = .ok frames ∧
    (RuleSet.standard.engine fuel).follow lines (stage.machine.opening frames) = .done (last, []) core ∧
    core.Core (Arena.root :: stage.held) ∧ core.Contained ∧ core.tasks.count = stage.machine.tasks.count ∧
    core.halted = false ∧ middle = core.closing ⟨stage.machine.runnerCount + 1⟩ [] := by
  obtain ⟨frames, retained, begun, contained, concludes⟩ := program_concluded attained quiescent fuel
  have ends := concludes lines (by omega)
  rw [done] at ends
  generalize followed : (RuleSet.standard.engine fuel).follow lines (stage.machine.opening frames) = outcome at ends
  cases ends with
  | escaped _ _ _ further => exact absurd (further middle (.inl ⟨value, rfl⟩)) (by rw [few]; exact Nat.lt_irrefl _)
  | done last left core =>
    -- Lines are left by a halt only, and the machine has not been halted.
    rcases Engine.follow_left _ lines _ core (last, left) followed with rfl | halted
    · have here : ((RuleSet.standard.engine fuel).follow lines (stage.machine.opening frames)).Leaves core :=
        .inl ⟨_, followed⟩
      obtain ⟨rests, _⟩ := Engine.core_follow fuel _ _ begun lines core here
      obtain ⟨quiet, counted⟩ := Engine.follow_contained fuel lines _ begun.fits contained core here few.le
      exact ⟨frames, last, core, retained, followed, rests, quiet, counted, up, rfl⟩
    · exact absurd (halted.symm.trans up) Bool.noConfusion

theorem middle_quiescent : Attained config (stage.put middle) ∧ (stage.put middle).Quiescent := by
  obtain ⟨_, _, core, _, _, _, contained, _, _, rfl⟩ :=
    first_piece attained quiescent fuel lines others enough value middle done up few
  exact ⟨.program stage lines fuel _ attained quiescent.outside (.inl ⟨value, done⟩),
    quiescent.outside, rfl, contained.suits.2.1, contained.suits.2.2.1, rfl⟩

theorem pieces_agree
    (valued : (∀ frames, middle.frames.retain Arena.root = .ok frames → ∀ ran last,
        (RuleSet.standard.engine fuel).follow others (middle.opening frames) = .done ran last → ran.1.isSome = true) ∨
      ∃ failure broken, (RuleSet.standard.engine fuel).evalProgram others middle = .failed failure broken)
    (after : Machine) (less : after.tasks.count = stage.machine.tasks.count)
    (left : ((RuleSet.standard.engine fuel).evalProgram others middle).Leaves after ∨
      ((RuleSet.standard.engine fuel).evalProgram (lines ++ others) stage.machine).Leaves after) :
    ((RuleSet.standard.engine fuel).evalProgram others middle).Agrees
      ((RuleSet.standard.engine fuel).evalProgram (lines ++ others) stage.machine) := by
  obtain ⟨attainedNext, quiescentNext⟩ := middle_quiescent attained quiescent fuel lines others enough value middle done up few
  obtain ⟨frames, last, core, retained, followed, rests, contained, counted, coreUp, same⟩ :=
    first_piece attained quiescent fuel lines others enough value middle done up few
  have config_known (stage : Stage) (attained : Attained config stage) : stage.machine.config = config :=
    congrArg Prod.fst (reachable_setting config stage (attained_reachable config stage attained))
  have sameConfig : middle.config = stage.machine.config :=
    (config_known _ attainedNext).trans (config_known _ attained).symm
  -- The whole goes on where the first piece has ended, and the second piece is begun there.
  obtain ⟨_, again, _, _, concludes⟩ := program_concluded attained quiescent fuel
  cases retained.symm.trans again
  have whole := concludes (lines ++ others) (by rw [List.length_append]; exact enough)
  rw [Engine.follow_append _ lines others _ core last followed] at whole
  obtain ⟨later, retainedNext, _, _, concludesNext⟩ := program_concluded attainedNext quiescentNext fuel
  have parts := concludesNext others (show others.length + middle.config.idleLimit + 1 < fuel by rw [sameConfig]; omega)
  have opened : middle.opening later = core.unnumbered.pass Machine.blockTime := by
    subst same
    exact second_opens core ⟨stage.machine.runnerCount + 1⟩ rests coreUp later retainedNext
  change ((RuleSet.standard.engine fuel).follow others (middle.opening later)).Concluded _ none middle.tasks.count _ at parts
  rw [opened, few] at parts
  -- Whichever of both has ended, the lines of the second piece have, and end in the same way here and there.
  have reached : ∃ reached, reached.tasks.count ≤ core.tasks.count ∧
      (((RuleSet.standard.engine fuel).follow others (core.unnumbered.pass Machine.blockTime)).Leaves reached ∨
        ((RuleSet.standard.engine fuel).follow others core).Leaves reached) := by
    rw [counted]
    rcases left with left | left
    · obtain ⟨reached, went, less⟩ := Outcome.concluded_left _ _ parts after left less.le
      exact ⟨reached, less, .inl went⟩
    · obtain ⟨reached, went, less⟩ := Outcome.concluded_left _ _ whole after left less.le
      rcases Exec.leaves_bind _ _ _ _ went with went | ⟨ran, machine, done, pure⟩
      · exact ⟨reached, less, .inr went⟩
      · obtain rfl := (Outcome.done_leaves _ _ reached).mp pure
        exact ⟨reached, less, .inr (.inl ⟨_, done⟩)⟩
  obtain ⟨reached, less, went⟩ := reached
  obtain ⟨ended, first, second, ends⟩ := Engine.follow_apart fuel others _ core rests contained reached less went
  rw [counted] at ends
  rw [first] at parts
  refine Outcome.concluded_agree ended _ _ _ _ _ last _ _ (fun ran machine same => ?_) ends _ core second parts whole
  subst same
  rcases valued with valued | ⟨failure, broken, failed⟩
  · exact valued later retainedNext ran (machine.pass Machine.blockTime) (by rw [opened, first]; rfl)
  · obtain ⟨last, here, counted⟩ := ends
    obtain rfl := (Outcome.done_leaves _ _ last).mp here
    cases failed.symm.trans (Outcome.concluded_done ran.1 ran.2 (last.pass Machine.blockTime) _ counted.le parts)

end Pieces

theorem RuleSet.load_parsed (source : String) (file : Option String) (lines : List Node) (machine after : Machine)
    (loaded : standard.load source file machine = .done lines after) : standard.parse source file = some (.ok lines) := by
  unfold load at loaded
  cases parsed : standard.parse source file with
  | none =>
    rw [parsed] at loaded
    cases loaded
  | some result =>
    rw [parsed] at loaded
    cases result with
    | error => cases loaded
    | ok own =>
      cases loaded
      rfl

-- How the evaluation of a source ends in the machine, when it does.
def Evaluates (source : String) (machine : Machine) (outcome : Outcome Value) : Prop :=
  outcome ≠ .outOfFuel ∧ ∃ fuel, (RuleSet.standard.engine fuel).evalSource source machine = outcome

-- The source is begun in the machine, and of its lines that are then run one after the other some is an expression.
def Answers (source : String) (machine : Machine) : Prop :=
  ∃ lines fuel id start ran reached, RuleSet.standard.parse source none = some (.ok lines) ∧
    (Exec.clearHalt >>= fun _ => Exec.loadProgram lines Arena.root : Exec RunnerId) machine = .done id start ∧
    (RuleSet.standard.engine fuel).Dispatched start ran reached ∧ ∃ entry ∈ ran, entry.1.node.isExpression = true

section Evaluated
variable (source : String) (lines : List Node) (parsed : RuleSet.standard.parse source none = some (.ok lines))
include parsed

theorem eval_source_parsed (fuel : Nat) : (RuleSet.standard.engine (fuel + 1)).evalSource source =
    (RuleSet.standard.engine (fuel + 1)).evalProgram lines := by
  show (RuleSet.standard.load source none >>= _) = _
  unfold RuleSet.load
  rw [parsed]
  rfl

theorem evaluates_later (machine : Machine) (fits : machine.Fits none) (outcome : Outcome Value)
    (evaluates : Evaluates source machine outcome) :
    ∃ least, ∀ fuel, least ≤ fuel → (RuleSet.standard.engine fuel).evalProgram lines machine = outcome := by
  obtain ⟨ends, fuel, ran⟩ := evaluates
  cases fuel with
  | zero => exact absurd ran.symm ends
  | succ fuel =>
    rw [eval_source_parsed source lines parsed] at ran
    obtain ⟨after, left⟩ : ∃ after, ((RuleSet.standard.engine (fuel + 1)).evalProgram lines machine).Leaves after := by
      rw [ran]
      cases outcome with
      | done value after => exact ⟨after, .inl ⟨value, rfl⟩⟩
      | failed failure after => exact ⟨after, .inr ⟨failure, rfl⟩⟩
      | outOfFuel => exact absurd rfl ends
    refine ⟨fuel + 1, fun more less => ?_⟩
    have through : Exec.Through .whole (fun bound => bound = none) _ _ _ _ := Engine.eval_program_through
      (RuleSet.through_engine .whole (fuel + 1) more less False.elim) rfl lines fun _ all => all
    rw [Lens.whole.lines_sharp rfl] at through
    exact (Lens.more_fuel through Lens.whole_value rfl machine after fits left).trans ran

theorem evaluates_once (machine : Machine) (fits : machine.Fits none) (outcome other : Outcome Value)
    (evaluates : Evaluates source machine outcome) : Evaluates source machine other ↔ other = outcome := by
  refine ⟨fun again => ?_, fun same => same ▸ evaluates⟩
  obtain ⟨least, ends⟩ := evaluates_later source lines parsed machine fits outcome evaluates
  obtain ⟨more, endsAgain⟩ := evaluates_later source lines parsed machine fits other again
  rw [← ends (least + more) (Nat.le_add_right _ _), ← endsAgain (least + more) (Nat.le_add_left _ _)]

end Evaluated

theorem Outcome.agrees_ends (parts whole : Outcome Value) (agrees : parts.Agrees whole) :
    parts ≠ .outOfFuel ∧ whole ≠ .outOfFuel := by
  cases agrees <;> exact ⟨nofun, nofun⟩

theorem Outcome.alike_left (first second : Outcome Value) (alike : first.Alike second) (after : Machine)
    (left : second.Leaves after) : ∃ before, first.Leaves before ∧ before.tasks.count = after.tasks.count := by
  have counted (machine : Machine) : (placeless.machine machine).tasks.count = machine.tasks.count := by
    simp [TaskTable.count, Lens.machine, Lens.tasks, placeless]
  cases alike with
  | done value _ machine twin _ machines =>
    obtain rfl := (Outcome.done_leaves _ _ after).mp left
    exact ⟨machine, .inl ⟨value, rfl⟩, by rw [← counted, machines.whole, counted]⟩
  | failed failure _ machine twin _ _ machines =>
    obtain rfl := (Outcome.failed_leaves _ _ after).mp left
    exact ⟨machine, .inr ⟨failure, rfl⟩, by rw [← counted, machines.whole, counted]⟩
  | outOfFuel => exact absurd left (Outcome.exhausted_leaves after)

section Answering
variable {config : Config} {stage : Stage} (attained : Attained config stage) (quiescent : stage.Quiescent)
include attained quiescent

theorem evaluated_quiescent (source : String) (lines : List Node)
    (parsed : RuleSet.standard.parse source none = some (.ok lines)) (value : Value) (middle : Machine)
    (ends : Evaluates source stage.machine (.done value middle)) (up : middle.halted = false)
    (few : middle.tasks.count = stage.machine.tasks.count) :
    Attained config (stage.put middle) ∧ (stage.put middle).Quiescent := by
  have fits := (reachable_sound config stage (attained_reachable config stage attained)).fits
  obtain ⟨least, ends⟩ := evaluates_later source lines parsed stage.machine fits _ ends
  let fuel := least + lines.length + stage.machine.config.idleLimit + 2
  have enough : lines.length + ([] : List Node).length + stage.machine.config.idleLimit + 1 < fuel := by
    rw [List.length_nil]
    omega
  exact middle_quiescent attained quiescent fuel lines [] enough value middle (ends fuel (by omega)) up few

theorem answers_valued (source : String) (lines : List Node) (parsed : RuleSet.standard.parse source none = some (.ok lines))
    (answers : Answers source stage.machine) : ∃ least, ∀ fuel, least ≤ fuel → ∀ frames,
      stage.machine.frames.retain Arena.root = .ok frames → ∀ ran last,
        (RuleSet.standard.engine fuel).follow lines (stage.machine.opening frames) = .done ran last → ran.1.isSome = true := by
  obtain ⟨own, fewer, id, start, ran, reached, again, begun, dispatched, expression⟩ := answers
  cases parsed.symm.trans again
  refine ⟨fewer, fun fuel less frames retained result last done => ?_⟩
  obtain ⟨_, known, begins⟩ := program_begins attained quiescent
  cases retained.symm.trans known
  cases (begins lines).symm.trans begun
  obtain ⟨core, _⟩ := opening_core attained quiescent frames retained
  obtain ⟨left, value, middle, _, _, follows, valued⟩ :=
    Engine.dispatched_followed fuel _ _ core _ fewer less lines ran reached dispatched
  obtain ⟨_, further, _, ended⟩ := Exec.done_of_bind _ _ middle last result (follows.symm.trans done)
  cases ended
  rw [Option.isSome_or, valued expression, Bool.or_true]

theorem answers_first (source : String) (lines : List Node)
    (parsed : RuleSet.standard.parse source none = some (.ok lines)) (expression : lines.head?.any Node.isExpression = true)
    (value : Value) (after : Machine) (ends : Evaluates source stage.machine (.done value after))
    (few : after.tasks.count = stage.machine.tasks.count) : Answers source stage.machine := by
  obtain ⟨node, first, expression⟩ := Option.any_eq_true _ _ |>.mp expression
  obtain ⟨rest, rfl⟩ := List.head?_eq_some_iff.mp first
  have fits := (reachable_sound config stage (attained_reachable config stage attained)).fits
  obtain ⟨least, ends⟩ := evaluates_later source _ parsed stage.machine fits _ ends
  let fuel := least + (node :: rest).length + stage.machine.config.idleLimit + 2
  obtain ⟨frames, retained, core, _, concludes⟩ := program_concluded attained quiescent fuel
  have concluded := concludes (node :: rest) (by omega)
  rw [ends fuel (by omega)] at concluded
  obtain ⟨ran, last, done⟩ : ∃ ran last,
      (RuleSet.standard.engine fuel).follow (node :: rest) (stage.machine.opening frames) = .done ran last := by
    generalize (RuleSet.standard.engine fuel).follow (node :: rest) (stage.machine.opening frames) = followed at concluded
    cases concluded with
    | done value left machine => exact ⟨_, _, rfl⟩
    | escaped _ _ _ further => exact absurd (further after (.inl ⟨value, rfl⟩)) (few ▸ Nat.lt_irrefl _)
  rw [Engine.follow_cons _ node rest _ rfl] at done
  obtain ⟨middle, answer, went, _⟩ := Exec.done_of_bind _ _ _ last ran done
  obtain ⟨_, known, begins⟩ := program_begins attained quiescent
  cases retained.symm.trans known
  let id : RunnerId := ⟨stage.machine.runnerCount + 1⟩
  have hosted := Engine.line_hosted_done fuel _ _ core id node ⟨Arena.root, none, rest, none, false⟩ answer middle went
  exact ⟨_, fuel, _, _, _, _, parsed, begins (node :: rest),
    .next [] _ _ _ _ ⟨node, id, Arena.root⟩ [] answer .begun rfl rfl hosted (Exec.record_hosted middle id _ answer)
      (Exec.advance_hosted middle id rest _), _, List.mem_singleton_self _, expression⟩

end Answering

/-- A source and another one behind it read as the lines of the first followed by those of the second, but for their places.
Evaluated one after the other in a machine at rest they end as both in one do, if the first does not halt the machine, none of
them makes a promise, and the second has an expression among the lines that it runs, or fails. -/
theorem evaluated_in_pieces (first second : String) (file : Option String) (lines others : List Node)
    (parsed : RuleSet.standard.parse first file = some (.ok lines))
    (reparsed : RuleSet.standard.parse second file = some (.ok others)) :
    (∃ whole, RuleSet.standard.parse (joint first second) file = some (.ok whole) ∧
      placeless.lines whole = placeless.lines lines ++ placeless.lines others) ∧
    ∀ (config : Config) (stage : Stage), Attained config stage → stage.Quiescent → ∀ (value : Value) (middle : Machine),
      Evaluates first stage.machine (.done value middle) → middle.halted = false →
      middle.tasks.count = stage.machine.tasks.count →
      (Answers second middle ∨ ∃ failure broken, Evaluates second middle (.failed failure broken)) →
      ∀ (outcome : Outcome Value) (after : Machine),
        Evaluates second middle outcome ∨ Evaluates (joint first second) stage.machine outcome →
        outcome.Leaves after → after.tasks.count = stage.machine.tasks.count →
        ∃ parts whole, (∀ other, Evaluates second middle other ↔ other = parts) ∧
          (∀ other, Evaluates (joint first second) stage.machine other ↔ other = whole) ∧ parts.Agrees whole := by
  refine ⟨RuleSet.parse_joint first second file lines others parsed reparsed, ?_⟩
  intro config stage attained quiescent value middle begins up few answers outcome after evaluates left counted
  obtain ⟨lines, parsed, _⟩ := RuleSet.parse_renamed first file none lines parsed
  obtain ⟨others, reparsed, _⟩ := RuleSet.parse_renamed second file none others reparsed
  obtain ⟨all, joined, same⟩ := RuleSet.parse_joint first second none lines others parsed reparsed
  have same : placeless.lines (lines ++ others) = placeless.lines all := by
    rw [same, Lens.lines, Lens.lines, Lens.lines, List.map_append]
  have fits := (reachable_sound config stage (attained_reachable config stage attained)).fits
  obtain ⟨firstLeast, firstEnds⟩ := evaluates_later first lines parsed stage.machine fits _ begins
  obtain ⟨attainedNext, quiescentNext⟩ := evaluated_quiescent attained quiescent first lines parsed value middle begins up few
  have fitsNext := (reachable_sound config _ (attained_reachable config _ attainedNext)).fits
  -- What is known of the second piece holds of it with any ample fuel.
  obtain ⟨least, valued⟩ : ∃ least, ∀ fuel, least ≤ fuel → (∀ frames, middle.frames.retain Arena.root = .ok frames →
        ∀ ran last, (RuleSet.standard.engine fuel).follow others (middle.opening frames) = .done ran last → ran.1.isSome = true) ∨
      ∃ failure broken, (RuleSet.standard.engine fuel).evalProgram others middle = .failed failure broken := by
    rcases answers with answers | ⟨failure, broken, fails⟩
    · obtain ⟨least, valued⟩ := answers_valued attainedNext quiescentNext second others reparsed answers
      exact ⟨least, fun fuel less => .inl (valued fuel less)⟩
    · obtain ⟨least, failed⟩ := evaluates_later second others reparsed middle fitsNext _ fails
      exact ⟨least, fun fuel less => .inr ⟨failure, broken, failed fuel less⟩⟩
  obtain ⟨enough, ended⟩ : ∃ enough, ∀ fuel, enough ≤ fuel → ∃ after, after.tasks.count = stage.machine.tasks.count ∧
      (((RuleSet.standard.engine fuel).evalProgram others middle).Leaves after ∨
        ((RuleSet.standard.engine fuel).evalProgram (lines ++ others) stage.machine).Leaves after) := by
    rcases evaluates with parts | whole
    · obtain ⟨enough, ends⟩ := evaluates_later second others reparsed middle fitsNext _ parts
      exact ⟨enough, fun fuel less => ⟨after, counted, .inl (ends fuel less ▸ left)⟩⟩
    · obtain ⟨enough, ends⟩ := evaluates_later (joint first second) all joined stage.machine fits _ whole
      refine ⟨enough, fun fuel less => ?_⟩
      obtain ⟨before, gone, alike⟩ := Outcome.alike_left _ _ (RuleSet.eval_alike stage.machine fits fuel _ _ same) after
        (ends fuel less ▸ left)
      exact ⟨before, alike.trans counted, .inr gone⟩
  -- All is compared with one fuel, which is enough for each of the runs.
  let fuel := firstLeast + least + enough + lines.length + others.length + stage.machine.config.idleLimit + 2
  obtain ⟨after, counted, left⟩ := ended fuel (by omega)
  have agrees := Outcome.agrees_alike _ _ _
    (pieces_agree attained quiescent fuel lines others (by omega) value middle (firstEnds fuel (by omega)) up few
      (valued fuel (by omega)) after counted left)
    (RuleSet.eval_alike stage.machine fits fuel _ _ same)
  rw [← eval_source_parsed second others reparsed, ← eval_source_parsed (joint first second) all joined] at agrees
  obtain ⟨partsEnd, wholeEnds⟩ := Outcome.agrees_ends _ _ agrees
  refine ⟨_, _, fun other => ?_, fun other => ?_, agrees⟩
  · exact evaluates_once second others reparsed middle fitsNext _ other ⟨partsEnd, fuel, rfl⟩
  · exact evaluates_once (joint first second) all joined stage.machine fits _ other ⟨wholeEnds, fuel, rfl⟩

-- A function and a name in the first source, and what is done with them in the second.
theorem greeting_in_pieces :
    let first := "fn greet(name) \x7b print(name) \x7d\nwho = \"ada\""
    let second := "greet(who)\nwho"
    ∃ (value : Value) (middle : Machine) (parts whole : Outcome Value),
      Evaluates first (Machine.start .standard) (.done value middle) ∧ Evaluates second middle parts ∧
        Evaluates (joint first second) (Machine.start .standard) whole ∧ parts.Agrees whole ∧
        parts.endsWith (fun after => after.output == #["ada"]) = true := by
  let first := "fn greet(name) \x7b print(name) \x7d\nwho = \"ada\""
  let second := "greet(who)\nwho"
  let stage := Stage.start .standard
  let engine := RuleSet.standard.engine 30
  have begun : Attained .standard stage := .start
  have quiescent : stage.Quiescent := ⟨rfl, rfl, rfl, rfl, rfl⟩
  obtain ⟨lines, _, loaded, _⟩ := Outcome.gives_done (RuleSet.standard.load first none stage.machine) (fun _ _ => true)
    (by decide +kernel)
  obtain ⟨others, _, reloaded, expression⟩ := Outcome.gives_done (RuleSet.standard.load second none stage.machine)
    (fun lines _ => lines.head?.any Node.isExpression) (by decide +kernel)
  obtain ⟨value, middle, begins, ends⟩ := Outcome.ends_with_done (engine.evalSource first stage.machine)
    (fun middle => !middle.halted && middle.tasks.count == stage.machine.tasks.count &&
      (engine.evalSource second middle).endsWith fun after =>
        after.tasks.count == middle.tasks.count && after.output == #["ada"]) (by decide +kernel)
  simp only [Bool.and_eq_true, Bool.not_eq_true', beq_iff_eq] at ends
  obtain ⟨⟨up, few⟩, answered⟩ := ends
  obtain ⟨answer, after, answers, same⟩ := Outcome.ends_with_done _ _ answered
  simp only [Bool.and_eq_true, beq_iff_eq] at same
  have parsed := RuleSet.load_parsed first none lines _ _ loaded
  have reparsed := RuleSet.load_parsed second none others _ _ reloaded
  have evaluates : Evaluates first stage.machine (.done value middle) := ⟨nofun, 30, begins⟩
  have evaluatesNext : Evaluates second middle (.done answer after) := ⟨nofun, 30, answers⟩
  obtain ⟨attained, rests⟩ := evaluated_quiescent begun quiescent first lines parsed value middle evaluates up few
  have answering := answers_first attained rests second others reparsed expression answer after evaluatesNext same.1
  obtain ⟨_, pieces⟩ := evaluated_in_pieces first second none lines others parsed reparsed
  obtain ⟨parts, whole, partsOnly, wholeOnly, agrees⟩ := pieces .standard stage begun quiescent value middle evaluates up few
    (.inl answering) _ after (.inl evaluatesNext) (.inl ⟨answer, rfl⟩) (same.1.trans few)
  obtain rfl := (partsOnly _).mp evaluatesNext
  exact ⟨value, middle, _, whole, evaluates, evaluatesNext, (wholeOnly whole).mpr rfl, agrees, beq_iff_eq.mpr same.2⟩

end CoopScript
