import CoopScript.Proofs.Event.Roster
import CoopScript.Proofs.Trait.Host

set_option autoImplicit false
namespace CoopScript

namespace Machine

def withEvent (machine : Machine) (id : EventId) (event : Option Microevent) : Machine :=
  { machine with events := machine.events.map fun entry => if entry.1 = id then (id, event) else entry }

def withoutEvent (machine : Machine) (id : EventId) : Machine :=
  { machine with events := machine.events.filter fun entry => entry.1 ≠ id }

-- The machine when an invocation has come to an end and the event is put back or dropped.
def returned (machine : Machine) (id : EventId) (event : Microevent) : Except Failure EventStatus → Machine
  | .ok .done => machine.withoutEvent id
  | _ => machine.withEvent id (some event.advanced)

theorem returned_halted (machine : Machine) (id : EventId) (event : Microevent) (outcome : Except Failure EventStatus) :
    (machine.returned id event outcome).halted = machine.halted := by
  unfold returned
  split <;> rfl

end Machine

def Exec.KeepsEvents {α : Type} (step : Exec α) : Prop := ∀ machine after, (step machine).Leaves after →
  after.events = machine.events ∧ after.eventCount = machine.eventCount

-- A step, or what is left of a pass: the events that it has still before it.
inductive Errand : Type 1 where
  | step {α : Type} (step : Exec α)
  | serve (engine : Engine) (ids : List EventId)

/-- What a run has done to the events by the time that it passes through a machine, or has ended there. -/
inductive Errand.Recounts : Errand → Machine → List Happening → Machine → (ended : Bool) → Prop where
  | here (errand : Errand) (machine : Machine) : Recounts errand machine [] machine false
  | quiet {α : Type} (step : Exec α) (machine after : Machine) (quiet : step.KeepsEvents)
      (left : (step machine).Leaves after) : Recounts (.step step) machine [] after true
  | first {α β : Type} (step : Exec α) (next : α → Exec β) (machine middle : Machine) (log : List Happening)
      (ended : Bool) (first : Recounts (.step step) machine log middle ended) :
      Recounts (.step (step >>= next)) machine log middle false
  | next {α β : Type} (step : Exec α) (next : α → Exec β) (machine middle after : Machine) (value : α)
      (log more : List Happening) (ended : Bool) (ran : step machine = .done value middle)
      (first : Recounts (.step step) machine log middle true)
      (second : Recounts (.step (next value)) middle more after ended) :
      Recounts (.step (step >>= next)) machine (log ++ more) after ended
  | failed {α β : Type} (step : Exec α) (next : α → Exec β) (machine middle : Machine) (failure : Failure)
      (log : List Happening) (ran : step machine = .failed failure middle)
      (first : Recounts (.step step) machine log middle true) : Recounts (.step (step >>= next)) machine log middle true
  | attempt {α : Type} (step : Exec α) (machine after : Machine) (log : List Happening) (ended : Bool)
      (first : Recounts (.step step) machine log after ended) : Recounts (.step step.attempt) machine log after ended
  | mapFailure {α : Type} (change : Failure → Failure) (step : Exec α) (machine after : Machine) (log : List Happening)
      (ended : Bool) (first : Recounts (.step step) machine log after ended) :
      Recounts (.step (step.mapFailure change)) machine log after ended
  | register (event : Microevent) (machine after : Machine) (left : (Exec.registerEvent event machine).Leaves after) :
      Recounts (.step (Exec.registerEvent event)) machine [.registered ⟨machine.eventCount + 1⟩] after true
  | remove (id : EventId) (machine after : Machine) (left : (Exec.removeEvent id machine).Leaves after) :
      Recounts (.step (Exec.removeEvent id)) machine [.removed id] after true
  | sweep (machine after : Machine) (left : (Exec.dropEvents machine).Leaves after) :
      Recounts (.step Exec.dropEvents) machine [.swept machine.poolEvent] after true
  | pass (engine : Engine) (report : TickReport) (machine after : Machine) (log : List Happening)
      (serves : Recounts (.serve engine (machine.events.map Prod.fst)) machine log after true) :
      Recounts (.step (engine.serviceEvents report)) machine (.opened :: (log ++ [.closed])) after true
  | passing (engine : Engine) (report : TickReport) (machine middle : Machine) (log : List Happening) (ended : Bool)
      (serves : Recounts (.serve engine (machine.events.map Prod.fst)) machine log middle ended) :
      Recounts (.step (engine.serviceEvents report)) machine (.opened :: log) middle false
  | nobody (engine : Engine) (machine : Machine) : Recounts (.serve engine []) machine [] machine true
  | skip (engine : Engine) (id : EventId) (ids : List EventId) (machine after : Machine) (log : List Happening)
      (ended : Bool) (absent : machine.event? id = none) (rest : Recounts (.serve engine ids) machine log after ended) :
      Recounts (.serve engine (id :: ids)) machine log after ended
  | within (engine : Engine) (id : EventId) (ids : List EventId) (event : Microevent) (machine middle : Machine)
      (log : List Happening) (ended : Bool) (present : machine.event? id = some event)
      (runs : Recounts (.step (engine.runEvent event)) (machine.withEvent id none) log middle ended) :
      Recounts (.serve engine (id :: ids)) machine (.begun id :: log) middle false
  | last (engine : Engine) (id : EventId) (ids : List EventId) (event : Microevent) (machine left : Machine)
      (outcome : Except Failure EventStatus) (log : List Happening) (present : machine.event? id = some event)
      (runs : Recounts (.step (engine.runEvent event)) (machine.withEvent id none) log left true)
      (ran : (engine.runEvent event).attempt (machine.withEvent id none) = .done outcome left)
      (stops : left.halted = true ∨ ∃ failure, outcome = .error failure) :
      Recounts (.serve engine (id :: ids)) machine (.begun id :: (log ++ [.ended id outcome.toOption]))
        (left.returned id event outcome) true
  | onward (engine : Engine) (id : EventId) (ids : List EventId) (event : Microevent) (machine left after : Machine)
      (status : EventStatus) (log more : List Happening) (ended : Bool) (present : machine.event? id = some event)
      (runs : Recounts (.step (engine.runEvent event)) (machine.withEvent id none) log left true)
      (ran : (engine.runEvent event).attempt (machine.withEvent id none) = .done (.ok status) left)
      (goes : left.halted = false)
      (rest : Recounts (.serve engine ids) (left.returned id event (.ok status)) more after ended) :
      Recounts (.serve engine (id :: ids)) machine (.begun id :: (log ++ .ended id (some status) :: more)) after ended

-- What a roster tells of a machine: which events there are, in their order, and that those that are being invoked,
-- and no others, are absent from their entries.
structure Roster.Tells (roster : Roster) (machine : Machine) : Prop where
  listed : machine.events.map Prod.fst = roster.listed
  count : machine.eventCount = roster.count
  absent : ∀ entry ∈ machine.events, entry.2 = none ↔ .invocation entry.1 ∈ roster.activities

namespace Errand

-- What must be going on for an errand: a pass over the events that are left.
def Goes (activities : List Activity) : Errand → Prop
  | step _ => True
  | serve _ ids => ∃ skipped outer, activities = .pass (skipped ++ ids) :: outer

-- What is going on when it has ended.
def Leaves (before after : List Activity) : Errand → Prop
  | step _ => after = before
  | serve _ _ => ∃ waiting left outer, before = .pass waiting :: outer ∧ after = .pass left :: outer

end Errand

namespace Roster
variable (roster : Roster) (sound : roster.Sound)

section Events
variable (machine : Machine) (tells : roster.Tells machine)
include tells

theorem tells_kept (after : Machine) (events : after.events = machine.events)
    (count : after.eventCount = machine.eventCount) : roster.Tells after :=
  ⟨events ▸ tells.listed, count.trans tells.count, events ▸ tells.absent⟩

-- An event that there is to invoke is registered, and no invocation of it is going on.
theorem tells_present (id : EventId) (event : Microevent) (present : machine.event? id = some event) :
    id ∈ roster.listed ∧ .invocation id ∉ roster.activities := by
  unfold Machine.event? at present
  obtain ⟨entry, found, same⟩ := Option.bind_eq_some_iff.mp present
  have member := List.mem_of_find?_eq_some found
  have named : entry.1 = id := by simpa using List.find?_some found
  subst named
  refine ⟨tells.listed ▸ List.mem_map_of_mem member, fun going => ?_⟩
  rw [(tells.absent entry member).mpr going] at same
  cases same

-- A roster that tells of the same events, some of which are dropped.
theorem tells_filtered (keep : EventId → Bool) (after : Machine)
    (events : after.events = machine.events.filter fun entry => keep entry.1)
    (count : after.eventCount = machine.eventCount) :
    (⟨roster.listed.filter keep, roster.count, roster.activities⟩ : Roster).Tells after := by
  refine ⟨?_, count.trans tells.count, fun entry member => ?_⟩
  · rw [events, ← tells.listed, List.filter_map]
    rfl
  · rw [events] at member
    exact tells.absent entry (List.mem_filter.mp member).1

section Invocation
variable (id : EventId) (activities : List Activity)
variable (others : ∀ other, other ≠ id → (.invocation other ∈ activities ↔ .invocation other ∈ roster.activities))
include others

theorem tells_with (event : Option Microevent) (there : event = none ↔ .invocation id ∈ activities) :
    (⟨roster.listed, roster.count, activities⟩ : Roster).Tells (machine.withEvent id event) := by
  refine ⟨?_, tells.count, fun entry member => ?_⟩
  · rw [← tells.listed]
    show (machine.events.map _).map Prod.fst = _
    rw [List.map_map]
    refine List.map_congr_left fun entry _ => ?_
    show (if entry.1 = id then (id, event) else entry).1 = entry.1
    split
    next same => exact same.symm
    next => rfl
  · obtain ⟨old, known, rfl⟩ := List.mem_map.mp member
    show (if old.1 = id then (id, event) else old).2 = none ↔
      .invocation (if old.1 = id then (id, event) else old).1 ∈ activities
    by_cases same : old.1 = id
    · rw [if_pos same]
      exact there
    · rw [if_neg same]
      exact (tells.absent old known).trans (others old.1 same).symm

theorem tells_without :
    (⟨roster.listed.filter (· ≠ id), roster.count, activities⟩ : Roster).Tells (machine.withoutEvent id) := by
  have fewer := tells_filtered roster machine tells (fun other => decide (other ≠ id)) (machine.withoutEvent id) rfl rfl
  refine ⟨fewer.listed, fewer.count, fun entry member => ?_⟩
  have other : entry.1 ≠ id := of_decide_eq_true (List.mem_filter.mp member).2
  exact (fewer.absent entry member).trans (others entry.1 other).symm

end Invocation

include sound

theorem tells_registered (event : Microevent) (after : Machine) (left : (Exec.registerEvent event machine).Leaves after) :
    ∃ next, roster.Follows (.registered ⟨machine.eventCount + 1⟩) next ∧ next.Tells after ∧
      next.activities = roster.activities := by
  obtain rfl := (Outcome.done_leaves _ _ after).mp left
  obtain ⟨listed, count, absent⟩ := tells
  have fresh : .invocation ⟨machine.eventCount + 1⟩ ∉ roster.activities := fun going => by
    have registered := sound.registered _ ((roster.mem_running _).mpr going)
    rw [← count] at registered
    exact Nat.not_succ_le_self _ registered
  refine ⟨⟨roster.listed ++ [⟨machine.eventCount + 1⟩], machine.eventCount + 1, roster.activities⟩, ?_, ?_, rfl⟩
  · rw [count]
    exact .registered roster.listed roster.count roster.activities
  · refine ⟨?_, rfl, fun entry member => ?_⟩
    · show (machine.events ++ [_]).map Prod.fst = _
      rw [List.map_append, listed]
      rfl
    · rcases List.mem_append.mp member with old | new
      · exact absent entry old
      · rw [List.mem_singleton.mp new]
        exact iff_of_false (fun none => by cases none) fresh

theorem tells_begun (skipped ids : List EventId) (outer : List Activity) (id : EventId) (event : Microevent)
    (going : roster.activities = .pass (skipped ++ id :: ids) :: outer) (present : machine.event? id = some event) :
    ∃ next, roster.Follows (.begun id) next ∧ next.Tells (machine.withEvent id none) ∧
      next.activities = .invocation id :: .pass ids :: outer := by
  obtain ⟨known, still⟩ := tells_present roster machine tells id event present
  obtain ⟨listed, count, activities⟩ := roster
  subst going
  refine ⟨_, .begun listed count outer skipped ids id known fun going => still (List.mem_cons_of_mem _ going), ?_, rfl⟩
  refine tells_with ⟨listed, count, _⟩ machine tells id _ (fun other different => ?_) none (by simp)
  simp [different]

theorem tells_ended (outer : List Activity) (id : EventId) (event : Microevent) (outcome : Except Failure EventStatus)
    (going : roster.activities = .invocation id :: outer) :
    ∃ next, roster.Follows (.ended id outcome.toOption) next ∧ next.Tells (machine.returned id event outcome) ∧
      next.activities = outer := by
  have once := sound.once
  obtain ⟨listed, count, activities⟩ := roster
  subst going
  have apart : .invocation id ∉ outer := fun within =>
    (List.nodup_cons.mp once).1 ((mem_running ⟨listed, count, outer⟩ id).mpr within)
  have others : ∀ other, other ≠ id → (.invocation other ∈ outer ↔ .invocation other ∈ .invocation id :: outer) :=
    fun other different => by simp [different]
  refine ⟨_, .ended listed count outer id outcome.toOption, ?_, rfl⟩
  by_cases finished : outcome = .ok .done
  · subst finished
    exact tells_without ⟨listed, count, _⟩ machine tells id outer others
  · have put : machine.returned id event outcome = machine.withEvent id (some event.advanced) := by
      unfold Machine.returned
      split
      · exact absurd rfl finished
      · rfl
    have open_ : ¬ outcome.toOption = some .done := by
      cases outcome with
      | error => exact fun same => by cases same
      | ok status => exact fun same => finished (congrArg _ (Option.some.inj same))
    rw [put, if_neg open_]
    exact tells_with ⟨listed, count, _⟩ machine tells id outer others _ (iff_of_false (fun none => by cases none) apart)

end Events

end Roster

namespace Errand
open Roster

-- What only opens or closes a pass does not touch the events.
theorem tells_activities (roster : Roster) (machine : Machine) (tells : roster.Tells machine) (activities : List Activity)
    (same : ∀ id, .invocation id ∈ activities ↔ .invocation id ∈ roster.activities) :
    (⟨roster.listed, roster.count, activities⟩ : Roster).Tells machine :=
  ⟨tells.listed, tells.count, fun entry member => (tells.absent entry member).trans (same entry.1).symm⟩

theorem tells_opened (roster : Roster) (machine : Machine) (tells : roster.Tells machine) (engine : Engine) :
    ∃ inside, roster.Follows .opened inside ∧ inside.Tells machine ∧
      inside.activities = .pass roster.listed :: roster.activities ∧
      (serve engine (machine.events.map Prod.fst)).Goes inside.activities :=
  ⟨_, .opened roster.listed roster.count roster.activities,
    tells_activities roster machine tells _ fun id => by simp, rfl, [], roster.activities, by rw [tells.listed]; rfl⟩

theorem course_of_invocation (roster middle : Roster) (sound : roster.Sound) (id : EventId) (ids : List EventId)
    (event : Microevent) (outer : List Activity) (left : Machine) (outcome : Except Failure EventStatus)
    (log : List Happening) (begun : Roster) (follows : roster.Follows (.begun id) begun) (course : begun.Course log middle)
    (tells : middle.Tells left) (going : middle.activities = .invocation id :: .pass ids :: outer) :
    ∃ next, roster.Course (.begun id :: (log ++ [.ended id outcome.toOption])) next ∧
      next.Tells (left.returned id event outcome) ∧ next.activities = .pass ids :: outer := by
  have middleSound := course_sound begun middle log (follows_sound roster begun _ sound follows) course
  obtain ⟨next, ends, told, still⟩ := tells_ended middle middleSound left tells _ id event outcome going
  exact ⟨next, .more _ begun _ _ _ follows (course_append _ middle _ _ _ course (.more _ next _ _ _ ends (.none next))),
    told, still⟩

-- Whatever is done to the events goes its course, and its log tells of the machine at every moment.
theorem recounts_course (errand : Errand) (machine after : Machine) (log : List Happening) (ended : Bool)
    (recounts : errand.Recounts machine log after ended) (roster : Roster) (sound : roster.Sound)
    (tells : roster.Tells machine) (goes : errand.Goes roster.activities) :
    ∃ next, roster.Course log next ∧ next.Tells after ∧ (ended = true → errand.Leaves roster.activities next.activities) := by
  induction recounts generalizing roster with
  | here errand machine => exact ⟨roster, .none roster, tells, fun finished => by cases finished⟩
  | quiet step machine after quiet left =>
    obtain ⟨events, count⟩ := quiet machine after left
    exact ⟨roster, .none roster, tells_kept roster machine tells after events count, fun _ => rfl⟩
  | first step next machine middle log ended _ ih =>
    obtain ⟨there, course, told, _⟩ := ih roster sound tells trivial
    exact ⟨there, course, told, fun finished => by cases finished⟩
  | next step next machine middle after value log more ended _ _ _ ih later =>
    obtain ⟨between, course, told, same⟩ := ih roster sound tells trivial
    obtain ⟨last, rest, toldLast, kept⟩ := later between (course_sound roster between log sound course) told trivial
    refine ⟨last, course_append roster between last log more course rest, toldLast, fun finished => ?_⟩
    exact (kept finished).trans (same rfl)
  | failed step next machine middle failure log _ _ ih => exact ih roster sound tells trivial
  | attempt step machine after log ended _ ih => exact ih roster sound tells trivial
  | mapFailure change step machine after log ended _ ih => exact ih roster sound tells trivial
  | register event machine after left =>
    obtain ⟨next, follows, told, same⟩ := tells_registered roster sound machine tells event after left
    exact ⟨next, .more _ next _ _ _ follows (.none next), told, fun _ => same⟩
  | remove id machine after left =>
    obtain rfl := (Outcome.done_leaves _ _ after).mp left
    refine ⟨_, .more _ _ _ _ _ (.removed roster.listed roster.count roster.activities id) (.none _), ?_, fun _ => rfl⟩
    exact tells_filtered roster machine tells (fun other => decide (other ≠ id)) _ rfl rfl
  | sweep machine after left =>
    obtain rfl := (Outcome.done_leaves _ _ after).mp left
    refine ⟨_, .more _ _ _ _ _ (.swept roster.listed roster.count roster.activities machine.poolEvent) (.none _), ?_,
      fun _ => rfl⟩
    exact tells_filtered roster machine tells (fun id => decide (some id = machine.poolEvent)) _ rfl rfl
  | pass engine report machine after log _ ih =>
    obtain ⟨inside, opened, told, within, goes⟩ := tells_opened roster machine tells engine
    obtain ⟨there, course, toldThere, kept⟩ := ih inside (follows_sound roster inside _ sound opened) told goes
    obtain ⟨_, left, outer, before, behind⟩ := kept rfl
    obtain ⟨_, rfl⟩ := List.cons.inj (within.symm.trans before)
    obtain ⟨listed, count, activities⟩ := there
    subst behind
    have closes := Follows.closed listed count roster.activities left
    refine ⟨⟨listed, count, roster.activities⟩, .more _ inside _ _ _ opened ?_, ?_, fun _ => rfl⟩
    · exact course_append inside _ _ log _ course (.more _ _ _ _ _ closes (.none _))
    · exact tells_activities _ after toldThere _ fun id => by simp
  | passing engine report machine middle log ended _ ih =>
    obtain ⟨inside, opened, told, _, goes⟩ := tells_opened roster machine tells engine
    obtain ⟨there, course, toldThere, _⟩ := ih inside (follows_sound roster inside _ sound opened) told goes
    exact ⟨there, .more _ inside _ _ _ opened course, toldThere, fun finished => by cases finished⟩
  | nobody engine machine =>
    obtain ⟨skipped, outer, going⟩ := goes
    exact ⟨roster, .none roster, tells, fun _ => ⟨_, _, outer, going, going⟩⟩
  | skip engine id ids machine after log ended _ _ ih =>
    obtain ⟨skipped, outer, going⟩ := goes
    exact ih roster sound tells ⟨skipped ++ [id], outer, by simpa using going⟩
  | within engine id ids event machine middle log ended present _ ih =>
    obtain ⟨skipped, outer, going⟩ := goes
    obtain ⟨begun, follows, told, _⟩ := tells_begun roster sound machine tells skipped ids outer id event going present
    obtain ⟨there, course, toldThere, _⟩ := ih begun (follows_sound roster begun _ sound follows) told trivial
    exact ⟨there, .more _ begun _ _ _ follows course, toldThere, fun finished => by cases finished⟩
  | last engine id ids event machine left outcome log present _ _ _ ih =>
    obtain ⟨skipped, outer, going⟩ := goes
    obtain ⟨begun, follows, told, inside⟩ := tells_begun roster sound machine tells skipped ids outer id event going present
    obtain ⟨there, course, toldThere, same⟩ := ih begun (follows_sound roster begun _ sound follows) told trivial
    obtain ⟨next, whole, toldNext, back⟩ := course_of_invocation roster there sound id ids event outer left outcome log
      begun follows course toldThere ((same rfl).trans inside)
    exact ⟨next, whole, toldNext, fun _ => ⟨_, ids, outer, going, back⟩⟩
  | onward engine id ids event machine left after status log more ended present _ _ _ _ ih later =>
    obtain ⟨skipped, outer, going⟩ := goes
    obtain ⟨begun, follows, told, inside⟩ := tells_begun roster sound machine tells skipped ids outer id event going present
    obtain ⟨there, course, toldThere, same⟩ := ih begun (follows_sound roster begun _ sound follows) told trivial
    obtain ⟨next, whole, toldNext, back⟩ := course_of_invocation roster there sound id ids event outer left (.ok status) log
      begun follows course toldThere ((same rfl).trans inside)
    obtain ⟨last, rest, toldLast, kept⟩ := later next (course_sound roster next _ sound whole) toldNext ⟨[], outer, back⟩
    have through := course_append roster next last _ more whole rest
    refine ⟨last, by simpa [Except.toOption] using through, toldLast, fun finished => ?_⟩
    obtain ⟨_, left, around, before, behind⟩ := kept finished
    obtain ⟨_, rfl⟩ := List.cons.inj (back.symm.trans before)
    exact ⟨_, left, outer, going, behind⟩

end Errand

section Service
variable (engine : Engine) (id : EventId) (event : Microevent) (machine : Machine)

theorem Engine.service_event_ends (left : Machine) (outcome : Except Failure EventStatus)
    (ran : (engine.runEvent event).attempt (machine.withEvent id none) = .done outcome left) :
    engine.serviceEvent id event machine = Exec.ofOutcome outcome (left.returned id event outcome) := by
  show ((engine.runEvent event).attempt >>= _) (machine.withEvent id none) = _
  rw [Exec.bind_done _ _ _ left outcome ran]
  rcases outcome with failure | status
  · rfl
  · cases status <;> rfl

-- An invocation that is not gone through with has no end.
theorem Engine.service_event_attempted (after : Machine) (left : (engine.serviceEvent id event machine).Leaves after) :
    ∃ outcome left, (engine.runEvent event).attempt (machine.withEvent id none) = .done outcome left := by
  change (((engine.runEvent event).attempt >>= _) (machine.withEvent id none)).Leaves after at left
  cases ran : (engine.runEvent event).attempt (machine.withEvent id none) with
  | done outcome left => exact ⟨outcome, left, rfl⟩
  | failed failure middle =>
    unfold Exec.attempt at ran
    split at ran <;> cases ran
  | outOfFuel =>
    rw [Exec.bind_exhausted _ _ _ ran] at left
    exact absurd left (Outcome.exhausted_leaves after)

end Service

def Exec.Recounted {α : Type} (step : Exec α) : Prop :=
  ∀ machine after, (step machine).Leaves after → ∃ log, (Errand.step step).Recounts machine log after true

namespace Exec
variable {α β : Type} {step : Exec α}

theorem recounted_quiet (quiet : step.KeepsEvents) : step.Recounted := fun machine after left =>
  ⟨[], .quiet step machine after quiet left⟩

theorem recounted_modify (change : Machine → Machine)
    (kept : ∀ machine, (change machine).events = machine.events ∧ (change machine).eventCount = machine.eventCount) :
    (modify change).Recounted :=
  recounted_quiet fun machine after left => (Outcome.done_leaves () (change machine) after).mp left ▸ kept machine

theorem recounted_bind (next : α → Exec β) (first : step.Recounted) (later : ∀ value, (next value).Recounted) :
    (step >>= next).Recounted := by
  intro machine after left
  cases ran : step machine with
  | done value middle =>
    rw [bind_done step next _ _ value ran] at left
    obtain ⟨log, recounts⟩ := first machine middle (.inl ⟨value, ran⟩)
    obtain ⟨more, goesOn⟩ := later value middle after left
    exact ⟨log ++ more, .next step next machine middle after value log more true ran recounts goesOn⟩
  | failed failure middle =>
    rw [bind_failed step next _ _ failure ran, Outcome.failed_leaves] at left
    subst left
    obtain ⟨log, recounts⟩ := first machine after (.inr ⟨failure, ran⟩)
    exact ⟨log, .failed step next machine after failure log ran recounts⟩
  | outOfFuel =>
    rw [bind_exhausted step next _ ran] at left
    exact absurd left (Outcome.exhausted_leaves after)

theorem recounted_blind : Blind Exec.Recounted where
  small small := recounted_quiet fun machine after left =>
    have intact := small_leaves small machine after left
    ⟨intact.events, intact.eventCount⟩
  bind := recounted_bind
  raise failure := recounted_quiet fun machine after left => (Outcome.failed_leaves failure machine after).mp left ▸ ⟨rfl, rfl⟩
  attempt recounted machine after left :=
    (recounted machine after (leaves_attempt _ machine after left)).imp fun log => .attempt _ machine after log true
  mapFailure change recounted machine after left :=
    (recounted machine after (leaves_map_failure _ machine after change left)).imp fun log =>
      .mapFailure change _ machine after log true

end Exec

namespace Engine
variable (engine : Engine) (events : ∀ event, (engine.runEvent event).Recounted)
include events

theorem recounts_serve (ids : List EventId) (report : TickReport) (machine after : Machine)
    (left : (engine.serviceAll ids report machine).Leaves after) :
    ∃ log, (Errand.serve engine ids).Recounts machine log after true := by
  induction ids generalizing report machine with
  | nil =>
    obtain rfl := (Outcome.done_leaves _ _ after).mp left
    exact ⟨[], .nobody engine after⟩
  | cons id ids ih =>
    unfold serviceAll at left
    rw [Exec.read_then] at left
    cases present : machine.event? id with
    | none =>
      rw [present] at left
      obtain ⟨log, recounts⟩ := ih report machine left
      exact ⟨log, .skip engine id ids machine after log true present recounts⟩
    | some event =>
      rw [present] at left
      have serviced : ∃ middle, (engine.serviceEvent id event machine).Leaves middle := by
        rcases Exec.leaves_bind _ _ machine after left with early | ⟨status, middle, ran, _⟩
        · exact ⟨after, early⟩
        · exact ⟨middle, .inl ⟨status, ran⟩⟩
      obtain ⟨middle, serviced⟩ := serviced
      obtain ⟨outcome, back, ran⟩ := engine.service_event_attempted id event machine middle serviced
      have ends := engine.service_event_ends id event machine back outcome ran
      obtain ⟨log, runs⟩ := events event _ back (Exec.leaves_attempt _ _ back (.inl ⟨outcome, ran⟩))
      cases outcome with
      | error failure =>
        have failed : engine.serviceEvent id event machine = .failed failure (back.returned id event (.error failure)) := ends
        simp only [Exec.bind_failed _ _ machine _ failure failed, Outcome.failed_leaves] at left
        subst left
        exact ⟨_, .last engine id ids event machine back _ log present runs ran (.inr ⟨failure, rfl⟩)⟩
      | ok status =>
        have done : engine.serviceEvent id event machine = .done status (back.returned id event (.ok status)) := ends
        simp only [Exec.bind_done _ _ machine _ status done, Exec.halted_then, back.returned_halted] at left
        cases halted : back.halted with
        | true =>
          simp only [halted, if_true] at left
          obtain rfl := (Outcome.done_leaves _ _ after).mp left
          exact ⟨_, .last engine id ids event machine back _ log present runs ran (.inl halted)⟩
        | false =>
          simp only [halted, Bool.false_eq_true, if_false] at left
          obtain ⟨more, rest⟩ := ih _ _ left
          exact ⟨_, .onward engine id ids event machine back after status log more true present runs ran halted rest⟩

theorem recounted_service (report : TickReport) : (engine.serviceEvents report).Recounted := by
  intro machine after left
  obtain ⟨log, recounts⟩ := engine.recounts_serve events _ report machine after left
  exact ⟨_, .pass engine report machine after log recounts⟩

end Engine

def Trait.recounted : Trait :=
  have modify := @Exec.recounted_modify
  have enqueue (task : Microtask) : (Exec.enqueueMicrotask task).Recounted := modify _ fun _ => ⟨rfl, rfl⟩
  .ofBlind Exec.Recounted Exec.recounted_blind (fun task _ => enqueue task) (Exec.recounted_blind.spawn enqueue)
    (fun engine => engine.drain_holds Exec.Recounted Exec.recounted_blind.reads Exec.recounted_bind
      fun _ => modify _ fun _ => ⟨rfl, rfl⟩)
    (modify _ fun _ => ⟨rfl, rfl⟩) (fun event machine after left => ⟨_, .register event machine after left⟩)
    (fun id machine after left => ⟨_, .remove id machine after left⟩) Engine.recounted_service
    (fun machine after left => ⟨_, .sweep machine after left⟩)

theorem Happening.begins_append (front log more : List Happening) (begins : front <+: log ++ more) :
    front <+: log ∨ ∃ rest, front = log ++ rest ∧ rest <+: more := by
  obtain ⟨back, split⟩ := begins
  rcases List.append_eq_append_iff.mp split with ⟨rest, rfl, _⟩ | ⟨rest, rfl, rfl⟩
  · exact .inl ⟨rest, rfl⟩
  · exact .inr ⟨rest, rfl, back, rfl⟩

theorem Errand.recounts_pass (errand : Errand) (machine after : Machine) (log front : List Happening) (ended : Bool)
    (recounts : errand.Recounts machine log after ended) (begins : front <+: log) :
    ∃ middle finished, errand.Recounts machine front middle finished := by
  induction recounts generalizing front with
  | here errand machine | quiet _ machine | nobody _ machine =>
    obtain rfl := List.prefix_nil.mp begins
    exact ⟨machine, false, .here _ machine⟩
  | first step next machine _ _ _ _ ih | failed step next machine _ _ _ _ _ ih =>
    obtain ⟨between, finished, recounts⟩ := ih front begins
    exact ⟨between, false, .first step next machine between front finished recounts⟩
  | next step next machine middle after value log more ended ran whole _ ih later =>
    rcases Happening.begins_append front log more begins with inside | ⟨rest, rfl, behind⟩
    · obtain ⟨between, finished, recounts⟩ := ih front inside
      exact ⟨between, false, .first step next machine between front finished recounts⟩
    · obtain ⟨between, finished, recounts⟩ := later rest behind
      exact ⟨between, finished, .next step next machine middle between value log rest finished ran whole recounts⟩
  | attempt step machine after log ended _ ih =>
    obtain ⟨between, finished, recounts⟩ := ih front begins
    exact ⟨between, finished, .attempt step machine between front finished recounts⟩
  | mapFailure change step machine after log ended _ ih =>
    obtain ⟨between, finished, recounts⟩ := ih front begins
    exact ⟨between, finished, .mapFailure change step machine between front finished recounts⟩
  | skip engine id ids machine after log ended absent _ ih =>
    obtain ⟨between, finished, recounts⟩ := ih front begins
    exact ⟨between, finished, .skip engine id ids machine between front finished absent recounts⟩
  | register _ machine after left | remove _ machine after left | sweep machine after left =>
    -- What happens at once has happened or not.
    rcases List.prefix_cons_iff.mp begins with rfl | ⟨rest, rfl, none⟩
    · exact ⟨machine, false, .here _ machine⟩
    · obtain rfl := List.prefix_nil.mp none
      refine ⟨after, true, ?_⟩
      first
        | exact .register _ machine after left
        | exact .remove _ machine after left
        | exact .sweep machine after left
  | pass engine report machine after log whole ih =>
    rcases List.prefix_cons_iff.mp begins with rfl | ⟨front, rfl, inside⟩
    · exact ⟨machine, false, .here _ machine⟩
    rcases List.prefix_concat_iff.mp inside with rfl | inside
    · exact ⟨after, true, .pass engine report machine after log whole⟩
    · obtain ⟨between, finished, recounts⟩ := ih front inside
      exact ⟨between, false, .passing engine report machine between front finished recounts⟩
  | passing engine report machine middle log ended _ ih =>
    rcases List.prefix_cons_iff.mp begins with rfl | ⟨front, rfl, inside⟩
    · exact ⟨machine, false, .here _ machine⟩
    · obtain ⟨between, finished, recounts⟩ := ih front inside
      exact ⟨between, false, .passing engine report machine between front finished recounts⟩
  | within engine id ids event machine middle log ended present _ ih =>
    rcases List.prefix_cons_iff.mp begins with rfl | ⟨front, rfl, inside⟩
    · exact ⟨machine, false, .here _ machine⟩
    · obtain ⟨between, finished, recounts⟩ := ih front inside
      exact ⟨between, false, .within engine id ids event machine between front finished present recounts⟩
  | last engine id ids event machine left outcome log present whole ran stops ih =>
    rcases List.prefix_cons_iff.mp begins with rfl | ⟨front, rfl, inside⟩
    · exact ⟨machine, false, .here _ machine⟩
    rcases List.prefix_concat_iff.mp inside with rfl | inside
    · exact ⟨_, true, .last engine id ids event machine left outcome log present whole ran stops⟩
    · obtain ⟨between, finished, recounts⟩ := ih front inside
      exact ⟨between, false, .within engine id ids event machine between front finished present recounts⟩
  | onward engine id ids event machine left after status log more ended present whole ran goes _ ih later =>
    rcases List.prefix_cons_iff.mp begins with rfl | ⟨front, rfl, inside⟩
    · exact ⟨machine, false, .here _ machine⟩
    rcases Happening.begins_append front log _ inside with inside | ⟨rest, rfl, behind⟩
    · obtain ⟨between, finished, recounts⟩ := ih front inside
      exact ⟨between, false, .within engine id ids event machine between front finished present recounts⟩
    rcases List.prefix_cons_iff.mp behind with rfl | ⟨rest, rfl, onwards⟩
    · rw [List.append_nil]
      exact ⟨left, false, .within engine id ids event machine left log true present whole⟩
    · obtain ⟨between, finished, recounts⟩ := later rest onwards
      exact ⟨between, finished,
        .onward engine id ids event machine left between status log rest finished present whole ran goes recounts⟩

/-- What has become of a machine since it was started, by one request after the other, and what they have done to the
events. The rules may be changed from request to request. -/
inductive Eventful (config : Config) : List Happening → Machine → Prop where
  | start : Eventful config [] (Machine.start config)
  | request (log more : List Happening) (machine after : Machine) (eventful : Eventful config log machine)
      (rules : RuleSet) (fuel : Nat) (request : Request)
      (recounts : (Errand.step (request.under rules fuel)).Recounts machine more after true) :
      Eventful config (log ++ more) after

section Eventful
variable (config : Config) (log : List Happening) (machine : Machine) (eventful : Eventful config log machine)
include eventful

theorem Eventful.course : ∃ roster, Roster.empty.Course log roster ∧ roster.Tells machine ∧ roster.activities = [] := by
  induction eventful with
  | start => exact ⟨.empty, .none _, ⟨rfl, rfl, fun _ member => (nomatch member)⟩, rfl⟩
  | request log more machine after _ rules fuel request recounts ih =>
    obtain ⟨roster, course, tells, still⟩ := ih
    have sound := Roster.course_sound .empty roster log Roster.sound_empty course
    obtain ⟨next, rest, told, same⟩ := Errand.recounts_course _ machine after more true recounts roster sound tells trivial
    exact ⟨next, Roster.course_append _ roster next log more course rest, told, (same rfl).trans still⟩

theorem Eventful.moment (errand : Exec Unit) (more : List Happening) (middle : Machine) (finished : Bool)
    (recounts : (Errand.step errand).Recounts machine more middle finished) :
    Attended (log ++ more) ∧ middle.events.map Prod.fst = Happening.listed (log ++ more) ∧
      ∀ entry ∈ middle.events, entry.2 = none ↔ entry.1 ∈ Happening.running (log ++ more) := by
  obtain ⟨roster, course, tells, _⟩ := eventful.course
  have sound := Roster.course_sound .empty roster log Roster.sound_empty course
  obtain ⟨next, rest, told, _⟩ := Errand.recounts_course _ machine middle more finished recounts roster sound tells trivial
  have whole := Roster.course_append .empty roster next log more course rest
  have running : next.running = Happening.running (log ++ more) := Roster.course_running .empty next _ whole
  refine ⟨Happening.course_attended next _ whole, told.listed.trans (Roster.course_listed .empty next _ whole),
    fun entry member => (told.absent entry member).trans ?_⟩
  rw [← running]
  exact (next.mem_running entry.1).symm

end Eventful

end CoopScript
