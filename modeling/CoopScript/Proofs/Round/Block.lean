import CoopScript.Proofs.Control.Lines
import CoopScript.Proofs.Round.Robin
import CoopScript.Proofs.Stage.Reachable

set_option autoImplicit false
namespace CoopScript

-- The line that a block goes on with, and the machine that this line is run in.
structure Machine.Takes (machine : Machine) (id : RunnerId) (line : Line) (taken : Machine) : Prop where
  up : machine.halted = false
  unreturned : machine.runnerReturned id = false
  next : ∃ runner rest, machine.runner? id = some runner ∧ runner.lines = line.node :: rest ∧
    line = ⟨line.node, id, runner.frame⟩ ∧ taken = machine.updateRunner id fun runner => { runner with lines := rest }

namespace Engine

-- A block from `start` on, up to somewhere between two lines.
inductive Driven (engine : Engine) (id : RunnerId) (start : Machine) : Ran → Machine → Prop where
  | begun : Driven engine id start [] start
  | next (ran : Ran) (machine taken middle recorded : Machine) (line : Line) (value : Option Value)
      (before : Driven engine id start ran machine) (takes : machine.Takes id line taken)
      (done : engine.executeLine line.node line.frame taken = .done value middle)
      (noted : Exec.record id value middle = .done () recorded) :
      Driven engine id start (ran ++ [(line, value)]) recorded

-- A line that a block runs by itself, after those that were run before it.
def Drives (engine : Engine) (id : RunnerId) (start : Machine) (ran : Ran) (line : Line) (taken : Machine) : Prop :=
  ∃ machine, engine.Driven id start ran machine ∧ machine.Takes id line taken

-- A line that a pass over the ready lines runs, after those that were run before it.
def Dispatches (engine : Engine) (start : Machine) (ran : Ran) (line : Line) (taken : Machine) : Prop :=
  ∃ machine rest, engine.Dispatched start ran machine ∧ machine.halted = false ∧ machine.ready = line :: rest ∧
    taken = { machine with ready := rest }

-- Lines that run to their ends leave no lines in the queue, and the machine is not halted.
def Calm (engine : Engine) (start : Machine) : Prop :=
  ∀ ran line taken value after, engine.Dispatches start ran line taken →
    engine.executeLine line.node line.frame taken = .done value after → after.halted = false ∧ after.ready = []

end Engine

-- A change that the end of a block does not notice.
structure Runner.Marks (change : Runner → Runner) : Prop where
  frame : ∀ runner, (change runner).frame = runner.frame
  last : ∀ runner, (change runner).last = runner.last

section Takes
variable (engine : Engine) (id : RunnerId) (machine taken : Machine) (line : Line)

-- A program has its next line in the queue where a block by itself would run it.
theorem Exec.advance_takes (takes : machine.Takes id line taken) :
    advance id machine = .done () { taken with ready := machine.ready ++ [line] } := by
  obtain ⟨runner, rest, known, lines, same, rfl⟩ := takes.next
  unfold advance
  rw [read_then, takes.unreturned, read_then, known]
  simp only [Bool.false_eq_true, if_false, lines]
  rw [same]
  rfl

theorem Engine.step_takes (takes : machine.Takes id line taken) : engine.step id machine = (do
    let value ← engine.executeLine line.node line.frame
    Exec.record id value
    return .inl () : Exec (Unit ⊕ Unit)) taken := by
  obtain ⟨runner, rest, known, lines, same, rfl⟩ := takes.next
  rw [engine.step_next id machine runner line.node rest (by rw [takes.up, takes.unreturned]; rfl) known lines, same]

variable (up : machine.halted = false) (ended : ∀ line taken, ¬ machine.Takes id line taken)
include up ended

-- Where a block does not go on, its function has a result, its runner is gone, or there are no lines left.
theorem Machine.takes_none : machine.runnerReturned id = true ∨ machine.runner? id = none ∨
    machine.runnerReturned id = false ∧ ∃ runner, machine.runner? id = some runner ∧ runner.lines = [] := by
  cases returned : machine.runnerReturned id with
  | true => exact .inl rfl
  | false =>
    cases known : machine.runner? id with
    | none => exact .inr (.inl rfl)
    | some runner =>
      cases lines : runner.lines with
      | nil => exact .inr (.inr ⟨rfl, runner, rfl, lines⟩)
      | cons node rest => exact absurd ⟨up, returned, runner, rest, known, lines, rfl, rfl⟩ (ended ⟨node, id, runner.frame⟩ _)

theorem Exec.advance_over : ∃ change, Runner.Marks change ∧ advance id machine = .done () (machine.updateRunner id change) := by
  have ended := machine.takes_none id up ended
  unfold advance
  rw [read_then, read_then]
  cases known : machine.runner? id with
  | none => exact ⟨fun runner => runner, ⟨fun _ => rfl, fun _ => rfl⟩, by rw [machine.update_unknown id _ known]; rfl⟩
  | some runner =>
    refine ⟨fun runner => { runner with lines := [], finished := true }, ⟨fun _ => rfl, fun _ => rfl⟩, ?_⟩
    rcases ended with returned | none | ⟨unreturned, other, found, lines⟩
    · simp only [returned, if_true]
      rfl
    · rw [known] at none
      cases none
    · cases known.symm.trans found
      simp only [unreturned, Bool.false_eq_true, if_false, lines]
      rfl

theorem Engine.step_ends : ∃ change, Runner.Marks change ∧
    engine.step id machine = .done (.inr ()) (machine.updateRunner id change) := by
  have still : machine.updateRunner id (fun runner => runner) = machine := by
    simp [Machine.updateRunner]
  have plain : Runner.Marks fun runner => runner := ⟨fun _ => rfl, fun _ => rfl⟩
  rcases machine.takes_none id up ended with returned | none | ⟨unreturned, runner, known, lines⟩
  · exact ⟨_, plain, still.symm ▸ engine.step_over id machine (by rw [returned, Bool.or_true])⟩
  · refine ⟨_, plain, still.symm ▸ ?_⟩
    have unreturned : machine.runnerReturned id = false := by simp [Machine.runnerReturned, none]
    unfold step
    rw [Exec.halted_then, Exec.read_then, up, unreturned, if_neg (by simp), Exec.read_then, none]
    rfl
  · exact ⟨fun runner => { runner with finished := true }, ⟨fun _ => rfl, fun _ => rfl⟩,
      engine.step_last id machine runner (by rw [up, unreturned]; rfl) known lines⟩

end Takes

namespace Outcome
variable {α β : Type}

-- An outcome with other runners.
def relisted (runners : List (RunnerId × Runner)) : Outcome α → Outcome α
  | .done value machine => .done value { machine with runners := runners }
  | .failed failure machine => .failed failure { machine with runners := runners }
  | .outOfFuel => .outOfFuel

-- Two ways to run a block have come to the same end of it, but for marks on its runner.
inductive Trails (id : RunnerId) : Outcome α → Outcome β → Prop where
  | done (value : α) (other : β) (machine : Machine) (first second : Runner → Runner) (marks : Runner.Marks first)
      (too : Runner.Marks second) :
      Trails id (.done value (machine.updateRunner id first)) (.done other (machine.updateRunner id second))
  | failed (failure : Failure) (machine : Machine) : Trails id (.failed failure machine) (.failed failure machine)
  | outOfFuel : Trails id .outOfFuel .outOfFuel

end Outcome

theorem Machine.takes_queued (id : RunnerId) (machine taken : Machine) (line : Line) (empty : machine.ready = [])
    (takes : machine.Takes id line taken) : taken.halted = false ∧ taken.ready = [] ∧ line.runner = id := by
  obtain ⟨runner, rest, known, lines, same, rfl⟩ := takes.next
  exact ⟨takes.up, empty, same ▸ rfl⟩

theorem Exec.record_rests (id : RunnerId) (value : Option Value) (machine after : Machine)
    (noted : record id value machine = .done () after) (up : machine.halted = false) (empty : machine.ready = []) :
    after.halted = false ∧ after.ready = [] := by
  rw [record_done] at noted
  cases noted
  exact ⟨up, empty⟩

theorem Exec.advance_queued (id : RunnerId) (machine queued : Machine) (up : machine.halted = false)
    (empty : machine.ready = []) (advanced : advance id machine = .done () queued) (line : Line) (rest : List Line)
    (ready : queued.ready = line :: rest) :
    machine.Takes id line { queued with ready := rest } := by
  by_cases going : ∃ line taken, machine.Takes id line taken
  · obtain ⟨other, taken, takes⟩ := going
    obtain ⟨-, taken_empty, -⟩ := machine.takes_queued id taken other empty takes
    cases advanced.symm.trans (advance_takes id machine taken other takes)
    rw [empty, List.nil_append] at ready
    cases ready
    rwa [show ({ taken with ready := [] } : Machine) = taken by rw [← taken_empty]]
  · obtain ⟨change, -, moved⟩ := advance_over id machine up fun line taken takes => going ⟨line, taken, takes⟩
    cases advanced.symm.trans moved
    rw [show (machine.updateRunner id change).ready = machine.ready from rfl, empty] at ready
    cases ready

namespace Engine
variable (engine : Engine) (id : RunnerId)

theorem line_step_takes (report : TickReport) (taken : Machine) (line : Line) (up : taken.halted = false)
    (empty : taken.ready = []) : engine.lineStep report { taken with ready := [line] } = (do
      let value ← engine.executeLine line.node line.frame
      Exec.record line.runner value
      Exec.advance line.runner
      return .inl { report with lines := report.lines + 1 } : Exec (TickReport ⊕ TickReport)) taken := by
  cases taken
  cases up
  cases empty
  rfl

-- Line by line a block is run as the scheduler runs it.
theorem drive_trails (begun : Machine) (calm : engine.Calm begun) (fuel : Nat) (ran : Ran) (machine queued : Machine)
    (report : TickReport) (dispatched : engine.Dispatched begun ran queued) (up : machine.halted = false)
    (empty : machine.ready = []) (advanced : Exec.advance id machine = .done () queued) :
    Outcome.Trails id (Exec.iterate (fun _ => engine.step id) fuel () machine)
      (Exec.iterate engine.lineStep fuel report queued) := by
  induction fuel generalizing ran machine queued report with
  | zero => exact .outOfFuel
  | succ fuel ih =>
    by_cases going : ∃ line taken, machine.Takes id line taken
    · obtain ⟨line, taken, takes⟩ := going
      obtain ⟨taken_up, taken_empty, own⟩ := machine.takes_queued id taken line empty takes
      cases advanced.symm.trans (Exec.advance_takes id machine taken line takes)
      rw [empty, List.nil_append] at dispatched ⊢
      have steps := engine.step_takes id machine taken line takes
      have rounds := engine.line_step_takes report taken line taken_up taken_empty
      have found : engine.Dispatches begun ran line taken :=
        ⟨_, [], dispatched, taken_up, rfl, by rw [← taken_empty]⟩
      cases ran_line : engine.executeLine line.node line.frame taken with
      | outOfFuel =>
        rw [Exec.bind_exhausted _ _ _ ran_line] at steps rounds
        simp only [Exec.iterate, steps, rounds]
        exact .outOfFuel
      | failed failure after =>
        rw [Exec.bind_failed _ _ _ _ _ ran_line] at steps rounds
        simp only [Exec.iterate, steps, rounds]
        exact .failed failure after
      | done value middle =>
        obtain ⟨still_up, still_empty⟩ := calm ran line taken value middle found ran_line
        obtain ⟨recorded, noted, -⟩ := Exec.record_total id value middle
        obtain ⟨recorded_up, recorded_empty⟩ := Exec.record_rests id value middle recorded noted still_up still_empty
        obtain ⟨after, moved, -⟩ := Exec.advance_total id recorded
        rw [Exec.bind_done _ _ _ _ _ ran_line, Exec.bind_done _ _ _ _ _ noted] at steps
        rw [Exec.bind_done _ _ _ _ _ ran_line, own, Exec.bind_done _ _ _ _ _ noted, Exec.bind_done _ _ _ _ _ moved] at rounds
        rw [Exec.iterate_again _ _ _ _ _ _ steps, Exec.iterate_again _ _ _ _ _ _ rounds]
        refine ih (ran ++ [(line, value)]) recorded after _ ?_ recorded_up recorded_empty moved
        refine .next ran _ middle recorded after line [] value dispatched taken_up rfl ?_ (own.symm ▸ noted) (own.symm ▸ moved)
        rw [← ran_line, ← taken_empty]
    · have ended : ∀ line taken, ¬ machine.Takes id line taken := fun line taken takes => going ⟨line, taken, takes⟩
      obtain ⟨first, marks, ends⟩ := engine.step_ends id machine up ended
      obtain ⟨second, too, queues⟩ := Exec.advance_over id machine up ended
      cases advanced.symm.trans queues
      rw [Exec.iterate_ended _ _ _ _ _ _ ends,
        Exec.iterate_ended _ _ _ _ _ _ (engine.line_step_idle report (machine.updateRunner id second) empty)]
      exact .done () report machine first second marks too

section Lines
variable (start begun : Machine) (calm : engine.Calm begun) (up : start.halted = false) (empty : start.ready = [])
  (advanced : Exec.advance id start = .done () begun)
include calm up empty advanced

theorem driven_dispatched (ran : Ran) (machine : Machine) (driven : engine.Driven id start ran machine) :
    machine.halted = false ∧ machine.ready = [] ∧
      ∃ queued, engine.Dispatched begun ran queued ∧ Exec.advance id machine = .done () queued := by
  induction driven with
  | begun => exact ⟨up, empty, begun, .begun, advanced⟩
  | next ran machine taken middle recorded line value before takes done noted ih =>
    obtain ⟨here_up, here_empty, queued, dispatched, here_advanced⟩ := ih
    obtain ⟨taken_up, taken_empty, own⟩ := machine.takes_queued id taken line here_empty takes
    cases here_advanced.symm.trans (Exec.advance_takes id machine taken line takes)
    rw [here_empty, List.nil_append] at dispatched
    have same : ({ taken with ready := [] } : Machine) = taken := by rw [← taken_empty]
    obtain ⟨still_up, still_empty⟩ := calm ran line taken value middle ⟨_, [], dispatched, taken_up, rfl, same.symm⟩ done
    obtain ⟨after, moved, -⟩ := Exec.advance_total id recorded
    obtain ⟨recorded_up, recorded_empty⟩ := Exec.record_rests id value middle recorded noted still_up still_empty
    exact ⟨recorded_up, recorded_empty, after, .next ran _ middle recorded after line [] value dispatched taken_up rfl
      (same ▸ done) (own.symm ▸ noted) (own.symm ▸ moved), moved⟩

theorem dispatched_driven (ran : Ran) (queued : Machine) (dispatched : engine.Dispatched begun ran queued) :
    ∃ machine, engine.Driven id start ran machine ∧ machine.halted = false ∧ machine.ready = [] ∧
      Exec.advance id machine = .done () queued := by
  induction dispatched with
  | begun => exact ⟨start, .begun, up, empty, advanced⟩
  | next ran queued middle recorded after line rest value before queued_up ready done noted moved ih =>
    obtain ⟨machine, driven, here_up, here_empty, here_advanced⟩ := ih
    have takes := Exec.advance_queued id machine queued here_up here_empty here_advanced line rest ready
    obtain ⟨-, -, own⟩ := machine.takes_queued id _ line here_empty takes
    rw [own] at noted moved
    obtain ⟨still_up, still_empty⟩ := calm ran line _ value middle ⟨queued, rest, before, queued_up, ready, rfl⟩ done
    obtain ⟨recorded_up, recorded_empty⟩ := Exec.record_rests id value middle recorded noted still_up still_empty
    exact ⟨recorded, .next ran machine _ middle recorded line value driven takes done noted, recorded_up, recorded_empty, moved⟩

-- The block and the queue come to the same lines, each in the same machine.
theorem drives_dispatches (ran : Ran) (line : Line) (taken : Machine) :
    engine.Drives id start ran line taken ↔ engine.Dispatches begun ran line taken := by
  constructor
  · rintro ⟨machine, driven, takes⟩
    obtain ⟨here_up, here_empty, queued, dispatched, here_advanced⟩ :=
      engine.driven_dispatched id start begun calm up empty advanced ran machine driven
    obtain ⟨taken_up, taken_empty, -⟩ := machine.takes_queued id taken line here_empty takes
    cases here_advanced.symm.trans (Exec.advance_takes id machine taken line takes)
    rw [here_empty, List.nil_append] at dispatched
    exact ⟨_, [], dispatched, taken_up, rfl, by rw [← taken_empty]⟩
  · rintro ⟨queued, rest, dispatched, queued_up, ready, rfl⟩
    obtain ⟨machine, driven, here_up, here_empty, here_advanced⟩ :=
      engine.dispatched_driven id start begun calm up empty advanced ran queued dispatched
    exact ⟨machine, driven, Exec.advance_queued id machine queued here_up here_empty here_advanced line rest ready⟩

end Lines

theorem driven_cases (start machine : Machine) (ran : Ran) (driven : engine.Driven id start ran machine) :
    ran = [] ∧ machine = start ∨ ∃ before former line taken value middle, ran = before ++ [(line, value)] ∧
      engine.Driven id start before former ∧ former.Takes id line taken ∧
      engine.executeLine line.node line.frame taken = .done value middle ∧
      Exec.record id value middle = .done () machine := by
  cases driven with
  | begun => exact .inl ⟨rfl, rfl⟩
  | next before former taken middle recorded line value driven takes done noted =>
    exact .inr ⟨before, former, line, taken, value, middle, rfl, driven, takes, done, noted⟩

theorem driven_unique (start machine other : Machine) (ran : Ran) (driven : engine.Driven id start ran machine)
    (again : engine.Driven id start ran other) : machine = other := by
  induction driven generalizing other with
  | begun =>
    rcases engine.driven_cases id start other _ again with ⟨-, rfl⟩ | ⟨before, _, line, _, value, _, same, -⟩
    · rfl
    · cases before <;> cases same
  | next ran machine taken middle recorded line value before takes done noted ih =>
    rcases engine.driven_cases id start other _ again with
      ⟨none, -⟩ | ⟨front, former, next, entered, result, left, same, driven, takes', done', noted'⟩
    · cases ran <;> cases none
    · obtain ⟨rfl, last⟩ := List.append_inj' same rfl
      cases last
      cases ih former driven
      obtain ⟨runner, rest, known, lines, -, rfl⟩ := takes.next
      obtain ⟨runner', rest', known', lines', -, rfl⟩ := takes'.next
      cases known.symm.trans known'
      cases lines.symm.trans lines'
      cases done.symm.trans done'
      cases noted.symm.trans noted'
      rfl

end Engine

namespace Machine

theorem set_marked (id : RunnerId) (change : Runner → Runner) (last : RunnerId × Runner) (runners : List (RunnerId × Runner))
    (place : Nat) (distinct : (runners.map Prod.fst).Nodup)
    (found : runners.findIdx? (fun entry => entry.1 = id) = some place) :
    (runners.map fun entry => if entry.1 = id then (entry.1, change entry.2) else entry).set place last =
      runners.set place last := by
  induction runners generalizing place with
  | nil => rfl
  | cons entry rest ih =>
    obtain ⟨alone, others⟩ := List.nodup_cons.mp distinct
    rw [List.findIdx?_cons] at found
    by_cases own : entry.1 = id
    · simp only [own, decide_true, if_true, Option.some.injEq] at found
      subst found
      have apart : ∀ other ∈ rest, other.1 ≠ id := fun other member same =>
        alone (own ▸ same ▸ List.mem_map_of_mem member)
      rw [List.map_cons, List.set_cons_zero, List.set_cons_zero,
        List.map_congr_left fun other member => if_neg (apart other member), List.map_id']
    · simp only [own, decide_false, Bool.false_eq_true, if_false] at found
      obtain ⟨before, earlier, rfl⟩ := Option.map_eq_some_iff.mp found
      rw [List.map_cons, if_neg own, List.set_cons_succ, List.set_cons_succ, ih before others earlier]

theorem swap_erase_marked (machine : Machine) (id : RunnerId) (change : Runner → Runner) (numbered : machine.Numbered) :
    swapErase id (machine.updateRunner id change).runners = swapErase id machine.runners := by
  cases known : machine.runner? id with
  | none => rw [machine.update_unknown id change known]
  | some runner =>
    have listed := List.mem_of_find?_eq_some (machine.runner_found id runner known)
    obtain ⟨front, last, whole⟩ := (List.eq_nil_or_concat machine.runners).resolve_left (List.ne_nil_of_mem listed)
    have distinct := numbered.distinct
    simp only [updateRunner, swapErase]
    rw [whole, List.concat_eq_append] at distinct listed ⊢
    have same : ((fun entry : RunnerId × Runner => decide (entry.1 = id)) ∘ fun entry =>
        if entry.1 = id then (entry.1, change entry.2) else entry) = fun entry => decide (entry.1 = id) := by
      funext entry
      simp only [Function.comp]
      split <;> simp_all
    rw [List.findIdx?_map, same, List.map_append, List.map_singleton, List.getLast?_concat, List.getLast?_concat]
    rw [List.map_append, List.nodup_append] at distinct
    cases found : front.findIdx? fun entry => entry.1 = id with
    | some place =>
      obtain ⟨inside, here, -⟩ := List.findIdx?_eq_some_iff_getElem.mp found
      have other : last.1 ≠ id := fun own =>
        distinct.2.2 id (of_decide_eq_true here ▸ List.mem_map_of_mem (List.getElem_mem inside)) id (by simp [own]) rfl
      rw [List.findIdx?_append, found, Option.some_or]
      simp only [if_neg other]
      rw [List.set_append_left _ _ (by simpa using inside), List.set_append_left _ _ inside, List.dropLast_concat,
        List.dropLast_concat, set_marked id change last front place distinct.1 found]
    | none =>
      have others : ∀ entry ∈ front, entry.1 ≠ id := by simpa using found
      have own : last.1 = id := by
        rcases List.mem_append.mp listed with early | final
        · exact absurd rfl (others _ early)
        · exact (List.mem_singleton.mp final).symm ▸ rfl
      rw [List.map_congr_left fun entry member => if_neg (others entry member), List.map_id', List.findIdx?_append, found]
      simp [own]

end Machine

namespace Exec
variable (id : RunnerId) (machine : Machine) (change : Runner → Runner)

theorem finish_known (runner : Runner) (known : machine.runner? id = some runner) : finishRunner id machine =
    match machine.frames.release runner.frame with
    | (frames, none) =>
      .done runner.last { machine with runners := Machine.swapErase id machine.runners, frames := frames }
    | (frames, some cause) =>
      .failed (.of cause) { machine with runners := Machine.swapErase id machine.runners, frames := frames } := by
  unfold finishRunner
  rw [read_then, known]
  show (releaseFrame runner.frame >>= fun _ => Pure.pure runner.last)
    { machine with runners := Machine.swapErase id machine.runners } = _
  simp only [Bind.bind, bind, releaseFrame]
  cases machine.frames.release runner.frame with
  | mk frames cause => cases cause <;> rfl

theorem finish_marked (marks : Runner.Marks change) :
    (∃ runners, finishRunner id (machine.updateRunner id change) = (finishRunner id machine).relisted runners) ∧
      (machine.Numbered → finishRunner id (machine.updateRunner id change) = finishRunner id machine) := by
  cases known : machine.runner? id with
  | none =>
    rw [machine.update_unknown id change known]
    refine ⟨⟨machine.runners, ?_⟩, fun _ => rfl⟩
    unfold finishRunner
    rw [read_then, known]
    rfl
  | some runner =>
    have marked : (machine.updateRunner id change).runner? id = some (change runner) := by
      rw [machine.runner_updated, known]
      simp
    have both : finishRunner id (machine.updateRunner id change) = (finishRunner id machine).relisted
        (Machine.swapErase id (machine.updateRunner id change).runners) := by
      rw [finish_known id _ _ marked, finish_known id _ _ known, marks.frame, marks.last]
      simp only [show (machine.updateRunner id change).frames = machine.frames from rfl]
      cases machine.frames.release runner.frame with
      | mk frames cause => cases cause <;> rfl
    refine ⟨⟨_, both⟩, fun numbered => ?_⟩
    rw [both, machine.swap_erase_marked id change numbered, finish_known id _ _ known]
    cases machine.frames.release runner.frame with
    | mk frames cause => cases cause <;> rfl

end Exec

namespace Outcome
variable {α : Type}

theorem relisted_twice (outcome : Outcome α) (first second : List (RunnerId × Runner)) :
    (outcome.relisted first).relisted second = outcome.relisted second := by
  cases outcome <;> rfl

theorem relisted_own (outcome : Outcome α) : ∃ runners, outcome = outcome.relisted runners := by
  cases outcome with
  | done value machine => exact ⟨machine.runners, rfl⟩
  | failed failure machine => exact ⟨machine.runners, rfl⟩
  | outOfFuel => exact ⟨[], rfl⟩

end Outcome

theorem Machine.numbered_marked (machine : Machine) (id : RunnerId) (change : Runner → Runner) (marks : Runner.Marks change)
    (numbered : (machine.updateRunner id change).Numbered) : machine.Numbered := by
  have names : (machine.updateRunner id change).runners.map Prod.fst = machine.runners.map Prod.fst := by
    rw [← registered_names, ← registered_names, registered_updated machine id change marks.frame]
  refine ⟨names ▸ numbered.distinct, fun entry member => ?_⟩
  obtain ⟨other, listed, same⟩ := List.mem_map.mp (names ▸ List.mem_map_of_mem member : entry.1 ∈ _)
  exact same ▸ numbered.bounded other listed

namespace Exec
variable {α β : Type} (id : RunnerId)

-- The end of a block: its runner is finished, whatever has come of its lines.
def closing (lines : Exec α) : Exec (Option Value) := do
  let outcome ← lines.attempt
  let last ← finishRunner id
  let _ ← ofOutcome outcome
  return last

theorem closing_done (lines : Exec α) (value : α) (machine after : Machine) (done : lines machine = .done value after) :
    closing id lines machine = finishRunner id after := by
  unfold closing
  rw [bind_done _ _ _ after (.ok value) (by simp only [attempt, done])]
  simp only [Bind.bind, bind]
  cases finishRunner id after <;> rfl

theorem closing_failed (lines : Exec α) (failure : Failure) (machine after : Machine)
    (failed : lines machine = .failed failure after) :
    closing id lines machine = (finishRunner id >>= fun _ => raise failure) after := by
  unfold closing
  rw [bind_done _ _ _ after (.error failure) (by simp only [attempt, failed])]
  rfl

theorem closing_exhausted (lines : Exec α) (machine : Machine) (exhausted : lines machine = .outOfFuel) :
    closing id lines machine = .outOfFuel := bind_exhausted _ _ _ (by simp only [attempt, exhausted])

theorem closing_trails (lines : Exec α) (others : Exec β) (machine queued : Machine)
    (trails : Outcome.Trails id (lines machine) (others queued)) :
    (∃ runners, closing id others queued = (closing id lines machine).relisted runners) ∧
      ((∀ after, (lines machine).Leaves after → after.Numbered) → closing id others queued = closing id lines machine) := by
  generalize driven : lines machine = here at trails
  generalize dispatched : others queued = there at trails
  cases trails with
  | done value other end_of first second marks too =>
    rw [closing_done id _ value _ _ driven, closing_done id _ other _ _ dispatched]
    obtain ⟨⟨before, left⟩, same⟩ := finish_marked id end_of first marks
    obtain ⟨⟨runners, right⟩, again⟩ := finish_marked id end_of second too
    refine ⟨⟨runners, by rw [right, left, Outcome.relisted_twice]⟩, fun numbered => ?_⟩
    have distinct := end_of.numbered_marked id first marks (numbered _ (.inl ⟨value, rfl⟩))
    rw [again distinct, same distinct]
  | failed failure after =>
    rw [closing_failed id _ _ _ _ driven, closing_failed id _ _ _ _ dispatched]
    exact ⟨Outcome.relisted_own _, fun _ => rfl⟩
  | outOfFuel =>
    rw [closing_exhausted id _ _ driven, closing_exhausted id _ _ dispatched]
    exact ⟨⟨[], rfl⟩, fun _ => rfl⟩

end Exec

-- A block that is given to the scheduler, for one pass over the ready lines.
def Engine.runLoaded (engine : Engine) (lines : List Node) (frame : FrameId) : Exec (Option Value) := do
  let id ← Exec.loadProgram lines frame
  let outcome ← (engine.runLines .empty).attempt
  let last ← Exec.finishRunner id
  let _ ← Exec.ofOutcome outcome
  return last

/-- The two ways to run a block agree, if its lines leave no others in the queue and do not halt the machine: they come to
the same lines, each in the same machine, and end with the same outcome. -/
theorem block_run_alike (engine : Engine) (lines : List Node) (frame : FrameId) (machine : Machine)
    (up : machine.halted = false) (empty : machine.ready = [])
    (calm : ∀ id begun, Exec.loadProgram lines frame machine = .done id begun → engine.Calm begun) :
    (∀ id start begun, Exec.createRunner lines frame machine = .done id start →
      Exec.loadProgram lines frame machine = .done id begun →
      (∀ ran line taken, engine.Drives id start ran line taken ↔ engine.Dispatches begun ran line taken) ∧
      ∀ ran current, engine.Driven id start ran current → current.runnerReturned id = true →
        ∀ line taken, ¬ engine.Dispatches begun ran line taken) ∧
    (∃ runners, engine.runLoaded lines frame machine = (engine.runBlock lines frame machine).relisted runners) ∧
    ∀ config stage fuel, Reachable config stage → machine = stage.machine → engine = RuleSet.standard.engine fuel →
      engine.runLoaded lines frame machine = engine.runBlock lines frame machine := by
  cases created : Exec.createRunner lines frame machine with
  | outOfFuel =>
    have loaded : Exec.loadProgram lines frame machine = .outOfFuel := Exec.bind_exhausted _ _ _ created
    have same : engine.runLoaded lines frame machine = engine.runBlock lines frame machine := by
      rw [Engine.runLoaded, Engine.runBlock, Exec.bind_exhausted _ _ _ created, Exec.bind_exhausted _ _ _ loaded]
    exact ⟨nofun, same ▸ Outcome.relisted_own _, fun _ _ _ _ _ _ => same⟩
  | failed failure after =>
    have loaded : Exec.loadProgram lines frame machine = .failed failure after := Exec.bind_failed _ _ _ _ _ created
    have same : engine.runLoaded lines frame machine = engine.runBlock lines frame machine := by
      rw [Engine.runLoaded, Engine.runBlock, Exec.bind_failed _ _ _ _ _ created, Exec.bind_failed _ _ _ _ _ loaded]
    exact ⟨nofun, same ▸ Outcome.relisted_own _, fun _ _ _ _ _ _ => same⟩
  | done id start =>
    obtain ⟨begun, advanced, -⟩ := Exec.advance_total id start
    have loaded : Exec.loadProgram lines frame machine = .done id begun := by
      rw [Exec.loadProgram, Exec.bind_done _ _ _ _ _ created, Exec.bind_done _ _ _ _ _ advanced]
      rfl
    obtain ⟨still_up, still_empty⟩ : start.halted = false ∧ start.ready = [] := by
      obtain ⟨_, _, _, _, _, rfl⟩ := Exec.create_runner_done lines frame id machine start created
      exact ⟨up, empty⟩
    have alone : engine.runBlock lines frame machine = Exec.closing id (engine.drive id) start := by
      rw [Engine.runBlock, Exec.bind_done _ _ _ _ _ created]
      rfl
    have queued : engine.runLoaded lines frame machine = Exec.closing id (engine.runLines .empty) begun := by
      rw [Engine.runLoaded, Exec.bind_done _ _ _ _ _ loaded]
      rfl
    have trails := engine.drive_trails id begun (calm id begun loaded) engine.fuel [] start begun .empty .begun still_up
      still_empty advanced
    obtain ⟨alike, same⟩ := Exec.closing_trails id (engine.drive id) (engine.runLines .empty) start begun trails
    refine ⟨?_, by rwa [alone, queued], ?_⟩
    · rintro _ _ other ⟨⟩ again
      cases loaded.symm.trans again
      have both := engine.drives_dispatches id start begun (calm id begun loaded) still_up still_empty advanced
      refine ⟨both, fun ran current driven returned line taken dispatches => ?_⟩
      obtain ⟨machine, reached, takes⟩ := (both ran line taken).mpr dispatches
      cases engine.driven_unique id start current machine ran driven reached
      rw [takes.unreturned] at returned
      cases returned
    · rintro config stage fuel reached rfl rfl
      rw [alone, queued]
      refine same fun after left => ?_
      have sound := step_sound _ _ (reachable_sound config stage reached) (.openBlock stage lines frame id start created)
      have follows := Engine.lawful_drive _ (RuleSet.lawful_engine fuel) id (stage.put start) sound
      exact (Stage.follows_sound (stage.put start) _ _ after sound follows left).numbered

-- The first line gives the function of the frame its result, and both ways the second one is left out.
theorem block_run_alike_returned :
    let engine := RuleSet.standard.engine 9
    let lines : List Node := [.giveBack "return" default none, .text "left out"]
    ∃ machine, Exec.pushFrame Arena.root true .empty (Machine.start .standard) = .done ⟨1, 0⟩ machine ∧
      engine.runLoaded lines ⟨1, 0⟩ machine = engine.runBlock lines ⟨1, 0⟩ machine ∧
      ∃ after, engine.runBlock lines ⟨1, 0⟩ machine = .done none after ∧ after.frames.hasReturned ⟨1, 0⟩ = true := by
  intro engine lines
  refine ⟨_, rfl, ?_, _, rfl, rfl⟩
  have pushed := Reachable.push (.start .standard) Arena.root ⟨1, 0⟩ true .empty _ .start (NameMap.all_empty Value.Plain) rfl
  refine (block_run_alike engine lines ⟨1, 0⟩ _ rfl rfl ?_).2.2 .standard _ 9 pushed rfl rfl
  rintro id begun ⟨⟩ ran line taken value after ⟨machine, rest, dispatched, up, ready, rfl⟩ done
  rcases engine.dispatched_once _ _ _ _ ⟨.giveBack "return" default none, ⟨1⟩, ⟨1, 0⟩⟩ none rfl rfl rfl rfl rfl ran
    machine dispatched with rfl | none
  · cases ready
    cases done
    exact ⟨rfl, rfl⟩
  · cases none.symm.trans ready

end CoopScript
