import CoopScript.Proofs.Control.Result
import CoopScript.Proofs.Frame.Lasting
import CoopScript.Proofs.Machine.Round
import Mathlib.Algebra.GroupWithZero.Nat
import Mathlib.Algebra.Order.BigOperators.Group.List
import Mathlib.Data.List.Basic

/-!
Programs that run side by side: a pass over the ready lines takes them in turns, one line at a time, until each has run
its last line. The turns are those of several lists: the first items of all, then the second items of all, and so on, those
that are at their end being passed over.
-/
set_option autoImplicit false
namespace CoopScript.Rounds
variable {α : Type}

def level (lists : List (List α)) (place : Nat) : List α := lists.filterMap (·[place]?)

-- The items at the first so many places, by place first and by list second.
def upTo (lists : List (List α)) (bound : Nat) : List α := (List.range bound).flatMap (level lists)

def longest (lists : List (List α)) : Nat := (lists.map List.length).foldr max 0

-- All items, by place first and by list second.
def order (lists : List (List α)) : List α := upTo lists (longest lists)

theorem length_longest (lists : List (List α)) : ∀ list ∈ lists, list.length ≤ longest lists := by
  induction lists with
  | nil => intro list member; cases member
  | cons first rest ih =>
    refine List.forall_mem_cons.mpr ⟨Nat.le_max_left _ _, fun list member => ?_⟩
    exact (ih list member).trans (Nat.le_max_right _ _)

theorem level_beyond (lists : List (List α)) (place : Nat) (beyond : longest lists ≤ place) :
    level lists place = [] := by
  refine List.filterMap_eq_nil_iff.mpr fun list member => ?_
  exact List.getElem?_eq_none ((length_longest lists list member).trans beyond)

theorem order_up_to (lists : List (List α)) (bound : Nat) (enough : longest lists ≤ bound) :
    upTo lists bound = order lists := by
  induction bound, enough using Nat.le_induction with
  | base => rfl
  | succ bound enough ih =>
    have end_reached := level_beyond lists bound enough
    simpa [upTo, List.range_succ, end_reached] using ih

theorem mem_order (lists : List (List α)) (item : α) (member : item ∈ order lists) : ∃ list ∈ lists, item ∈ list := by
  obtain ⟨place, _, there⟩ := List.mem_flatMap.mp member
  obtain ⟨list, listed, got⟩ := List.mem_filterMap.mp there
  exact ⟨list, listed, List.mem_of_getElem? got⟩

theorem order_empty (lists : List (List α)) : order ([] :: lists) = order lists := by
  have same : longest ([] :: lists) = longest lists := Nat.zero_max _
  unfold order upTo
  rw [same]
  refine List.flatMap_congr fun place _ => ?_
  simp [level]

-- Where one item goes to the front of each round, the rounds can as well be cut behind that item.
theorem rounds_shifted (first : Nat → List α) (others : Nat → List α) (bound : Nat) :
    ((List.range bound).flatMap fun place => first place ++ others place) ++ first bound =
      first 0 ++ (List.range bound).flatMap fun place => others place ++ first (place + 1) := by
  induction bound with
  | zero => simp
  | succ bound ih =>
    simp only [List.range_succ, List.flatMap_append, List.flatMap_singleton, List.append_assoc]
    rw [← List.append_assoc _ (first bound), ih]
    simp only [List.append_assoc]

theorem order_turn (item : α) (left : List α) (lists : List (List α)) :
    order ((item :: left) :: lists) = item :: order (lists ++ [left]) := by
  obtain ⟨bound, before, later⟩ : ∃ bound, longest ((item :: left) :: lists) ≤ bound ∧ longest (lists ++ [left]) ≤ bound :=
    ⟨_, Nat.le_max_left _ _, Nat.le_max_right _ _⟩
  have enough : left.length < bound := (length_longest _ _ List.mem_cons_self).trans before
  have shifted := rounds_shifted (fun place => (item :: left)[place]?.toList) (level lists) bound
  have past : (item :: left)[bound]? = none := List.getElem?_eq_none enough
  rw [← order_up_to _ bound before, ← order_up_to _ bound later]
  calc upTo ((item :: left) :: lists) bound
      = (List.range bound).flatMap fun place => (item :: left)[place]?.toList ++ level lists place := by
        refine List.flatMap_congr fun place _ => ?_
        cases got : (item :: left)[place]? <;> simp [level, got]
    _ = item :: (List.range bound).flatMap fun place => level lists place ++ left[place]?.toList := by
        simpa [past] using shifted
    _ = item :: upTo (lists ++ [left]) bound := by
        refine congrArg (item :: ·) (List.flatMap_congr fun place _ => ?_)
        cases got : left[place]? <;> simp [level, got]

-- Turn after turn, until nothing is left of any list.
theorem turns_induction (motive : List (List α) → Prop) (none : motive [])
    (past : ∀ lists, motive lists → motive ([] :: lists))
    (turn : ∀ item left lists, motive (lists ++ [left]) → motive ((item :: left) :: lists)) (lists : List (List α)) :
    motive lists :=
  match lists with
  | [] => none
  | [] :: lists => past lists (turns_induction motive none past turn lists)
  | (item :: left) :: lists => turn item left lists (turns_induction motive none past turn (lists ++ [left]))
termination_by (lists.map List.length).sum + lists.length
decreasing_by all_goals simp <;> omega

theorem order_length (lists : List (List α)) : (order lists).length = (lists.map List.length).sum := by
  induction lists using turns_induction with
  | none => rfl
  | past lists ih => simpa [order_empty] using ih
  | turn item left lists ih =>
    rw [order_turn, List.length_cons, ih]
    simp
    omega

end CoopScript.Rounds

namespace CoopScript

-- A program on its way: its runner, where its lines are run, and the lines that it has not run yet.
structure Track where
  runner : RunnerId
  frame : FrameId
  functionFrame : Option FrameId
  lines : List Node

-- The lines that have been run, each with the value that it had.
abbrev Ran := List (Line × Option Value)

namespace Ran

-- The value of the last line with a value that a runner has run.
def lastValue (ran : Ran) (id : RunnerId) : Option Value :=
  ((ran.filter fun entry => entry.1.runner = id).filterMap Prod.snd).getLast?

theorem last_value_later (ran : Ran) (line : Line) (value : Option Value) (id : RunnerId) :
    lastValue (ran ++ [(line, value)]) id =
      if line.runner = id then value.or (lastValue ran id) else lastValue ran id := by
  unfold lastValue
  by_cases own : line.runner = id
  · cases value <;> simp [own]
  · simp [own]

end Ran

-- The lines of a program as the queue holds them.
def linesOf (program : RunnerId × List Node × FrameId) : List Line :=
  program.2.1.map fun node => ⟨node, program.1, program.2.2⟩

namespace Track

def queue (track : Track) : List Line := linesOf (track.runner, track.lines, track.frame)

-- The track's runner while the first of the lines that are left is in the queue.
def state (track : Track) (last : Option Value) : Runner :=
  ⟨track.frame, track.functionFrame, track.lines.tail, last, track.lines.isEmpty⟩

end Track

namespace Arena

-- The function that code in this frame belongs to, if there is one, has no result yet.
def Unreturned (arena : Arena) (id : FrameId) : Prop :=
  ∀ function, arena.functionFrame id = .ok (some function) → arena.hasReturned function = false

theorem returned_retain (arena after : Arena) (id other : FrameId) (retained : arena.retain id = .ok after) :
    after.hasReturned other = arena.hasReturned other := by
  obtain ⟨frame, found, rfl⟩ := retain_found arena after id retained
  by_cases here : other = id
  · subst here
    simp [hasReturned, frame_set arena other other frame _ found, found]
  · exact arena.returned_set id other frame _ found here

theorem unreturned_retain (arena after : Arena) (id other : FrameId) (retained : arena.retain id = .ok after)
    (unreturned : arena.Unreturned other) : after.Unreturned other := by
  intro function asked
  rw [returned_retain arena after id function retained]
  obtain ⟨frame, found, rfl⟩ := retain_found arena after id retained
  exact unreturned function
    ((arena.function_frame_set id other frame { frame with holds := frame.holds + 1 } found rfl rfl).symm.trans asked)

end Arena

theorem Machine.returned_updated (machine : Machine) (id other : RunnerId) (change : Runner → Runner)
    (same : ∀ runner, (change runner).functionFrame = runner.functionFrame) :
    (machine.updateRunner id change).runnerReturned other = machine.runnerReturned other := by
  unfold Machine.runnerReturned
  rw [Machine.runner_updated]
  cases machine.runner? other with
  | none => rfl
  | some runner =>
    simp only [Option.map_some, Option.bind_some, apply_ite Runner.functionFrame, same, ite_self]
    rfl

namespace Exec

theorem advance_track (track : Track) (last : Option Value) (machine : Machine)
    (known : machine.runner? track.runner = some ⟨track.frame, track.functionFrame, track.lines, last, false⟩)
    (unreturned : machine.runnerReturned track.runner = false) :
    ∃ after, advance track.runner machine = .done () after ∧ after.halted = machine.halted ∧
      after.frames = machine.frames ∧ (∀ other, after.runnerReturned other = machine.runnerReturned other) ∧
      after.ready = machine.ready ++ track.queue.head?.toList ∧
      (∀ other, after.runner? other = if other = track.runner then some (track.state last) else machine.runner? other) ∧
      (machine.Numbered → after.Numbered) := by
  obtain ⟨id, frame, functionFrame, lines⟩ := track
  unfold advance
  rw [read_then, unreturned, read_then, known]
  cases lines with
  | nil =>
    refine ⟨_, rfl, rfl, rfl, fun other => machine.returned_updated id other _ fun _ => rfl, (List.append_nil _).symm,
      fun other => ?_, ?_⟩
    · simp only [Machine.runner_updated]
      split
      next same => simp [same, known, Track.state]
      next => simp
    · exact machine.numbered_updated id _ fun _ => rfl
  | cons node rest =>
    refine ⟨_, rfl, rfl, rfl, fun other => machine.returned_updated id other (fun runner => { runner with lines := rest })
      fun _ => rfl, rfl, fun other => ?_, fun numbered => ?_⟩
    · show (machine.updateRunner id fun runner => { runner with lines := rest }).runner? other = _
      rw [Machine.runner_updated]
      split
      next same => simp [same, known, Track.state]
      next => simp
    · have updated := machine.numbered_updated id (fun runner => { runner with lines := rest }) (fun _ => rfl) numbered
      exact ⟨updated.distinct, updated.bounded⟩

end Exec

namespace Machine

-- The machine while programs take turns. `waiting` is the order in which they come next, `spent` are those at their
-- end.
structure Rota (machine : Machine) (ran : Ran) (waiting spent : List Track) : Prop where
  up : machine.halted = false
  ready : machine.ready = waiting.filterMap fun track => track.queue.head?
  distinct : ((waiting ++ spent).map Track.runner).Nodup
  known : ∀ track ∈ waiting ++ spent, machine.runner? track.runner = some (track.state (ran.lastValue track.runner))
  unreturned : ∀ track ∈ waiting ++ spent, machine.runnerReturned track.runner = false
  ended : ∀ track ∈ spent, track.lines = []

section Rota
variable (machine after : Machine) (ran : Ran) (waiting spent : List Track) (track : Track)

theorem rota_ready (node : Node) (left : List Node) (rota : machine.Rota ran (track :: waiting) spent)
    (next : track.lines = node :: left) :
    machine.ready = ⟨node, track.runner, track.frame⟩ :: waiting.filterMap fun track => track.queue.head? := by
  simpa [Track.queue, linesOf, next] using rota.ready

theorem rota_over (rota : machine.Rota ran (track :: waiting) spent) (ended : track.lines = []) :
    machine.Rota ran waiting (track :: spent) where
  up := rota.up
  ready := by simpa [Track.queue, linesOf, ended] using rota.ready
  distinct := ((List.perm_middle (a := track)).map Track.runner).nodup_iff.mpr rota.distinct
  known := fun other member => rota.known other (List.perm_middle.subset member)
  unreturned := fun other member => rota.unreturned other (List.perm_middle.subset member)
  ended := List.forall_mem_cons.mpr ⟨ended, rota.ended⟩

theorem rota_join (rota : machine.Rota ran waiting spent) (fresh : track.runner ∉ (waiting ++ spent).map Track.runner)
    (up : after.halted = machine.halted) (ready : after.ready = machine.ready ++ track.queue.head?.toList)
    (runners : ∀ other, after.runner? other =
      if other = track.runner then some (track.state (ran.lastValue track.runner)) else machine.runner? other)
    (unreturned : ∀ other ∈ track :: (waiting ++ spent), after.runnerReturned other.runner = false) :
    after.Rota ran (waiting ++ [track]) spent where
  up := up.trans rota.up
  ready := by
    rw [ready, rota.ready, List.filterMap_append]
    cases next : track.queue.head? <;> simp [next]
  distinct := by
    have moved : (track :: (waiting ++ spent)).Perm (waiting ++ [track] ++ spent) := by
      rw [List.append_assoc]
      exact List.perm_middle.symm
    exact (moved.map Track.runner).nodup_iff.mp (List.nodup_cons.mpr ⟨fresh, rota.distinct⟩)
  known := by
    intro other member
    have moved : (waiting ++ [track] ++ spent).Perm (track :: (waiting ++ spent)) := by
      rw [List.append_assoc]
      exact List.perm_middle
    rw [runners]
    rcases List.mem_cons.mp (moved.subset member) with rfl | earlier
    · exact if_pos rfl
    · have apart : other.runner ≠ track.runner := fun same => fresh (same ▸ List.mem_map_of_mem earlier)
      rw [if_neg apart]
      exact rota.known other earlier
  unreturned := by
    intro other member
    refine unreturned other (List.Perm.subset ?_ member)
    rw [List.append_assoc]
    exact List.perm_middle
  ended := rota.ended

end Rota

-- What a line may leave behind that halts nothing, queues no lines, and keeps off these runners and their functions.
structure Undisturbed (before : Machine) (ids : List RunnerId) (after : Machine) : Prop where
  up : before.halted = false → after.halted = false
  ready : after.ready = before.ready
  runners : ∀ id ∈ ids, after.runner? id = before.runner? id
  unreturned : ∀ id ∈ ids, before.runnerReturned id = false → after.runnerReturned id = false

end Machine

namespace Engine
variable (engine : Engine)

-- A pass over the ready lines from `start` on, up to somewhere between two lines.
inductive Dispatched (start : Machine) : Ran → Machine → Prop where
  | begun : Dispatched start [] start
  | next (ran : Ran) (machine middle recorded after : Machine) (line : Line) (rest : List Line) (value : Option Value)
      (before : Dispatched start ran machine) (up : machine.halted = false) (ready : machine.ready = line :: rest)
      (done : engine.executeLine line.node line.frame { machine with ready := rest } = .done value middle)
      (noted : Exec.record line.runner value middle = .done () recorded)
      (moved : Exec.advance line.runner recorded = .done () after) :
      Dispatched start (ran ++ [(line, value)]) after

theorem line_step_idle (report : TickReport) (machine : Machine) (empty : machine.ready = []) :
    engine.lineStep report machine = .done (.inr report) machine := by
  unfold lineStep
  rw [Exec.read_then, empty]
  rfl

theorem line_step_runs (report : TickReport) (machine middle recorded after : Machine) (line : Line) (rest : List Line)
    (value : Option Value) (up : machine.halted = false) (ready : machine.ready = line :: rest)
    (done : engine.executeLine line.node line.frame { machine with ready := rest } = .done value middle)
    (noted : Exec.record line.runner value middle = .done () recorded)
    (moved : Exec.advance line.runner recorded = .done () after) :
    engine.lineStep report machine = .done (.inl { report with lines := report.lines + 1 }) after := by
  unfold lineStep
  rw [Exec.read_then, ready]
  show (Exec.isHalted >>= _) machine = _
  rw [Exec.halted_then, up]
  show (engine.executeLine line.node line.frame >>= _) { machine with ready := rest } = _
  rw [Exec.bind_done _ _ _ _ value done, Exec.bind_done _ _ _ _ () noted, Exec.bind_done _ _ _ _ () moved]
  rfl

-- The first program in turn has run a line and goes to the back.
theorem rota_turn (machine middle : Machine) (ran : Ran) (track : Track) (others spent : List Track) (node : Node)
    (left : List Node) (ids : List RunnerId) (value : Option Value)
    (rota : machine.Rota ran (track :: others) spent) (next : track.lines = node :: left)
    (own : ∀ other ∈ track :: others ++ spent, other.runner ∈ ids)
    (calm : ({ machine with ready := others.filterMap fun track => track.queue.head? } : Machine).Undisturbed ids middle) :
    ∃ recorded after, Exec.record track.runner value middle = .done () recorded ∧
      Exec.advance track.runner recorded = .done () after ∧
      after.Rota (ran ++ [(⟨node, track.runner, track.frame⟩, value)]) (others ++ [{ track with lines := left }]) spent := by
  obtain ⟨fresh, distinct⟩ := List.nodup_cons.mp rota.distinct
  have apart : ∀ other ∈ others ++ spent, other.runner ≠ track.runner :=
    fun other member same => fresh (same ▸ List.mem_map_of_mem member)
  have runner_kept : ∀ other ∈ track :: others ++ spent,
      middle.runner? other.runner = some (other.state (ran.lastValue other.runner)) :=
    fun other member => (calm.runners other.runner (own other member)).trans (rota.known other member)
  let recorded := middle.updateRunner track.runner fun runner => { runner with last := value.or runner.last }
  have unreturned : ∀ other ∈ track :: others ++ spent, recorded.runnerReturned other.runner = false := by
    intro other member
    have before := rota.unreturned other member
    exact (middle.returned_updated track.runner other.runner
      (fun runner => { runner with last := value.or runner.last }) fun _ => rfl).trans
      (calm.unreturned other.runner (own other member) before)
  have waits : recorded.Rota (ran ++ [(⟨node, track.runner, track.frame⟩, value)]) others spent := by
    refine ⟨calm.up rota.up, calm.ready, distinct, fun other member => ?_,
      fun other member => unreturned other (List.mem_cons_of_mem _ member), rota.ended⟩
    show (middle.updateRunner _ _).runner? _ = _
    rw [Machine.runner_updated, runner_kept other (List.mem_cons_of_mem _ member), Ran.last_value_later]
    simp [apart other member, Ne.symm (apart other member)]
  have known : recorded.runner? track.runner =
      some ⟨track.frame, track.functionFrame, left, value.or (ran.lastValue track.runner), false⟩ := by
    show (middle.updateRunner _ _).runner? _ = _
    rw [Machine.runner_updated, runner_kept track List.mem_cons_self]
    simp [Track.state, next]
  obtain ⟨after, moved, up, _, sameReturned, queued, runners, _⟩ :=
    Exec.advance_track { track with lines := left } _ recorded known (unreturned track List.mem_cons_self)
  refine ⟨recorded, after, Exec.record_done track.runner value middle, moved, ?_⟩
  refine recorded.rota_join after _ others spent { track with lines := left } waits fresh up queued ?_ ?_
  · simpa [Ran.last_value_later] using runners
  · intro other member
    rw [sameReturned]
    rcases List.mem_cons.mp member with rfl | further
    · exact unreturned track List.mem_cons_self
    · exact unreturned other (List.mem_cons_of_mem _ further)

-- Every line that the pass comes to is run to its end, and keeps off the programs.
def Peaceful (start : Machine) (lines : List Line) (ids : List RunnerId) : Prop :=
  ∀ ran machine line rest, engine.Dispatched start ran machine → machine.ready = line :: rest → line ∈ lines →
    ∃ value middle, engine.executeLine line.node line.frame { machine with ready := rest } = .done value middle ∧
      ({ machine with ready := rest } : Machine).Undisturbed ids middle

-- The pass takes all lines of all programs, in turns, and leaves every program at its end.
theorem rota_runs (start : Machine) (lines : List Line) (ids : List RunnerId) (peaceful : engine.Peaceful start lines ids)
    (queues : List (List Line)) (waiting spent : List Track) (machine : Machine) (ran : Ran) (report : TickReport) (fuel : Nat)
    (turns : waiting.map Track.queue = queues) (reached : engine.Dispatched start ran machine)
    (rota : machine.Rota ran waiting spent) (own : ∀ track ∈ waiting ++ spent, track.runner ∈ ids)
    (known : ∀ line ∈ Rounds.order queues, line ∈ lines) (enough : (Rounds.order queues).length < fuel) :
    ∃ later after, Exec.iterate engine.lineStep fuel report machine =
        .done { report with lines := report.lines + (Rounds.order queues).length } after ∧
      engine.Dispatched start (ran ++ later) after ∧ later.map Prod.fst = Rounds.order queues ∧
      after.halted = false ∧ after.ready = [] ∧
      ∀ track ∈ waiting ++ spent, after.runner? track.runner =
        some ⟨track.frame, track.functionFrame, [], (ran ++ later).lastValue track.runner, true⟩ := by
  obtain ⟨fuel, rfl⟩ : ∃ less, fuel = less + 1 := ⟨fuel - 1, by omega⟩
  induction queues using Rounds.turns_induction generalizing waiting spent machine ran report fuel with
  | none =>
    obtain rfl := List.map_eq_nil_iff.mp turns
    refine ⟨[], machine, Exec.iterate_ended _ _ _ _ _ _ (engine.line_step_idle report machine rota.ready), ?_, rfl, rota.up,
      rota.ready, fun track member => ?_⟩
    · rwa [List.append_nil]
    · rw [List.append_nil, rota.known track member, Track.state, rota.ended track member]
      rfl
  | past queues ih =>
    obtain ⟨track, others, rfl, noLines, rest⟩ := List.map_eq_cons_iff.mp turns
    have ended : track.lines = [] := List.map_eq_nil_iff.mp noLines
    rw [Rounds.order_empty] at known enough ⊢
    obtain ⟨later, after, done, dispatched, all, up, empty, finished⟩ := ih others (track :: spent) machine ran report rest
      reached (machine.rota_over ran others spent track rota ended)
      (fun other member => own other (List.perm_middle.subset member)) known fuel enough
    exact ⟨later, after, done, dispatched, all, up, empty, fun other member =>
      finished other (List.perm_middle.symm.subset member)⟩
  | turn line left queues ih =>
    obtain ⟨track, others, rfl, someLines, rest⟩ := List.map_eq_cons_iff.mp turns
    obtain ⟨node, nodes, next, rfl, rfl⟩ := List.map_eq_cons_iff.mp someLines
    rw [Rounds.order_turn] at known enough ⊢
    obtain ⟨here, further⟩ := List.forall_mem_cons.mp known
    have ready := machine.rota_ready ran others spent track node nodes rota next
    obtain ⟨value, middle, done, calm⟩ := peaceful ran machine _ _ reached ready here
    obtain ⟨recorded, after, noted, moved, turned⟩ :=
      rota_turn machine middle ran track others spent node nodes ids value rota next own calm
    have stepped := Dispatched.next ran machine middle recorded after _ _ value reached rota.up ready done noted moved
    rw [List.length_cons, Nat.add_lt_add_iff_right] at enough
    obtain ⟨fuel, rfl⟩ : ∃ less, fuel = less + 1 := ⟨fuel - 1, by omega⟩
    let back : Track := { track with lines := nodes }
    have own_back : ∀ other ∈ others ++ [back] ++ spent, other.runner ∈ ids := by
      simp only [List.append_assoc, List.cons_append, List.nil_append, List.forall_mem_append, List.forall_mem_cons] at own ⊢
      exact ⟨own.2.1, own.1, own.2.2⟩
    obtain ⟨later, last, went, dispatched, all, up, empty, finished⟩ := ih (others ++ [back]) spent after _
      { report with lines := report.lines + 1 } (by rw [List.map_append, rest]; rfl) stepped turned own_back further fuel enough
    refine ⟨_ :: later, last, ?_, List.append_cons ran _ later ▸ dispatched, congrArg₂ _ rfl all, up, empty, ?_⟩
    · have step := engine.line_step_runs report machine middle recorded after _ _ value rota.up ready done noted moved
      rw [Exec.iterate_again _ _ _ _ _ _ step, went]
      simp only [List.length_cons, Nat.add_assoc, Nat.add_comm 1]
    · rw [← List.append_cons] at finished
      simp only [List.append_assoc, List.cons_append, List.nil_append, List.forall_mem_append, List.forall_mem_cons]
        at finished ⊢
      exact ⟨finished.2.1, finished.1, finished.2.2⟩

end Engine

namespace Exec

theorem create_runner_opens (lines : List Node) (frame : FrameId) (id : RunnerId) (machine middle : Machine)
    (numbered : machine.Numbered) (unreturned : machine.frames.Unreturned frame)
    (created : createRunner lines frame machine = .done id middle) :
    machine.runner? id = none ∧ middle.halted = machine.halted ∧ middle.ready = machine.ready ∧ middle.Numbered ∧
      (∀ other, machine.frames.Unreturned other → middle.frames.Unreturned other) ∧ middle.runnerReturned id = false ∧
      (∀ other, other ≠ id → middle.runnerReturned other = machine.runnerReturned other) ∧
      ∃ functionFrame, ∀ other, middle.runner? other =
        if other = id then some ⟨frame, functionFrame, lines, none, false⟩ else machine.runner? other := by
  obtain ⟨frames, functionFrame, retained, asked, rfl, same⟩ := create_runner_done lines frame id machine middle created
  have unknown := machine.runner_fresh numbered
  have kept := fun other => machine.frames.unreturned_retain frames frame other retained
  have joined := fun other => machine.runner_appended _ other ⟨frame, functionFrame, lines, none, false⟩ unknown middle
    (congrArg Machine.runners same)
  have known := (joined _).trans (if_pos rfl)
  refine ⟨unknown, same ▸ rfl, same ▸ rfl, ?_, ?_, ?_, fun other apart => ?_,
    functionFrame, joined⟩
  · exact same ▸ machine.numbered_appended _ _ _ numbered
  · exact same ▸ kept
  · cases function : functionFrame with
    | none => simp only [Machine.runnerReturned, known, Option.bind_some, function]
    | some found =>
      rw [middle.returned_known _ _ found known function, same]
      exact kept frame unreturned found (asked.trans (congrArg _ function))
  · have frames_same : ∀ function, middle.frames.hasReturned function = machine.frames.hasReturned function :=
      fun function => same ▸ machine.frames.returned_retain frames frame function retained
    simp only [Machine.runnerReturned, joined, if_neg apart, frames_same]

theorem load_joins (lines : List Node) (frame : FrameId) (id : RunnerId) (machine start : Machine) (tracks : List Track)
    (rota : machine.Rota [] tracks []) (numbered : machine.Numbered) (unreturned : machine.frames.Unreturned frame)
    (loaded : loadProgram lines frame machine = .done id start) :
    ∃ functionFrame, start.Rota [] (tracks ++ [⟨id, frame, functionFrame, lines⟩]) [] ∧ start.Numbered ∧
      ∀ other, machine.frames.Unreturned other → start.frames.Unreturned other := by
  obtain ⟨middle, made, created, rest⟩ := done_of_bind _ _ machine start id loaded
  obtain ⟨queued, _, advanced, last⟩ := done_of_bind _ _ middle start id rest
  cases last
  obtain ⟨unknown, sameUp, sameReady, middleNumbered, kept, blank, others, functionFrame, joined⟩ :=
    create_runner_opens lines frame id machine middle numbered unreturned created
  obtain ⟨after, done, up, sameFrames, sameReturned, ready, runners, stillNumbered⟩ :=
    advance_track ⟨id, frame, functionFrame, lines⟩ none middle ((joined id).trans (if_pos rfl)) blank
  cases advanced.symm.trans done
  have fresh : id ∉ (tracks ++ []).map Track.runner := by
    intro member
    obtain ⟨track, listed, runner⟩ := List.mem_map.mp member
    have there := rota.known track listed
    rw [runner, unknown] at there
    cases there
  refine ⟨functionFrame, machine.rota_join start [] tracks [] ⟨id, frame, functionFrame, lines⟩ rota fresh
    (up.trans sameUp) (by rw [ready, sameReady]) (fun other => ?_) ?_, stillNumbered middleNumbered, sameFrames ▸ kept⟩
  · rw [runners, joined]
    split <;> rfl
  · refine List.forall_mem_cons.mpr ⟨(sameReturned id).trans blank, fun other member => ?_⟩
    have apart : other.runner ≠ id := fun same => fresh (same ▸ List.mem_map_of_mem member)
    exact (sameReturned other.runner).trans ((others other.runner apart).trans (rota.unreturned other member))

theorem load_rota (programs : List (List Node × FrameId)) (ids : List RunnerId) (machine start : Machine)
    (tracks : List Track) (rota : machine.Rota [] tracks []) (numbered : machine.Numbered)
    (unreturned : ∀ program ∈ programs, machine.frames.Unreturned program.2)
    (loaded : collect (fun program : List Node × FrameId => loadProgram program.1 program.2) programs machine =
      .done ids start) :
    ids.length = programs.length ∧ ∃ more : List Track, start.Rota [] (tracks ++ more) [] ∧
      more.map (fun track => (track.runner, track.lines, track.frame)) = ids.zip programs := by
  induction programs generalizing ids machine tracks with
  | nil =>
    cases loaded
    exact ⟨rfl, [], by rwa [List.append_nil], rfl⟩
  | cons program programs ih =>
    obtain ⟨middle, id, first, later⟩ := done_of_bind _ _ machine start ids loaded
    obtain ⟨after, others, rest, last⟩ := done_of_bind _ _ middle start ids later
    cases last
    obtain ⟨here, further⟩ := List.forall_mem_cons.mp unreturned
    obtain ⟨functionFrame, joined, stillNumbered, kept⟩ :=
      load_joins program.1 program.2 id machine middle tracks rota numbered here first
    obtain ⟨length, more, all, listed⟩ := ih others middle _ joined stillNumbered
      (fun other member => kept other.2 (further other member)) rest
    refine ⟨congrArg (· + 1) length, ⟨id, program.2, functionFrame, program.1⟩ :: more, ?_, ?_⟩
    · rwa [List.append_assoc] at all
    · rw [List.map_cons, listed, List.zip_cons_cons]

end Exec

end CoopScript
