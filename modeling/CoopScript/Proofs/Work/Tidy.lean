import CoopScript.Proofs.Machine.Background
import CoopScript.Proofs.Stage.Reachable
import CoopScript.Proofs.Work.Mild

set_option autoImplicit false
namespace CoopScript

def Microtask.Mild (microtask : Microtask) : Prop := ∀ actions, microtask = .host actions → Action.allMild actions = true

def Microevent.Mild (event : Microevent) : Prop := ∀ turns next, event = .host turns next → Turn.allMild turns = true

namespace Machine

structure Mild (machine : Machine) : Prop where
  classes : machine.classes.Mild
  frames : machine.frames.Mild
  tasks : ∀ task value, machine.tasks.state? task = some (.ready value) → value.Mild
  microtasks : ∀ microtask ∈ machine.microtasks, microtask.Mild
  events : ∀ entry ∈ machine.events, ∀ event, entry.2 = some event → event.Mild
  runners : ∀ entry ∈ machine.runners, ∀ value, entry.2.last = some value → value.Mild
  slots : machine.handles.slots.All Value.Mild

-- Events are known by numbers that are never given twice.
structure Polling (machine : Machine) : Prop where
  numbered : ∀ entry ∈ machine.events, entry.1.number ≤ machine.eventCount
  distinct : (machine.events.map Prod.fst).Nodup
  registered : ∀ id, machine.poolEvent = some id → (id, some .pollPool) ∈ machine.events
  only : ∀ id, (id, some .pollPool) ∈ machine.events → machine.poolEvent = some id
  busy : machine.jobs ≠ [] → machine.poolEvent ≠ none
  named : machine.handles.events.All fun id => id.number ≤ machine.eventCount ∧ machine.poolEvent ≠ some id

structure Tidy (machine : Machine) : Prop where
  mild : machine.Mild
  polling : machine.Polling

-- What once was an event of the host never asks the pool later.
structure Later (machine after : Machine) : Prop where
  count : machine.eventCount ≤ after.eventCount
  fresh : ∀ id, after.poolEvent = some id → machine.poolEvent = some id ∨ machine.eventCount < id.number

theorem later_refl (machine : Machine) : machine.Later machine := ⟨Nat.le_refl _, fun _ same => .inl same⟩

theorem later_trans (machine middle after : Machine) (first : machine.Later middle) (second : middle.Later after) :
    machine.Later after := by
  refine ⟨first.count.trans second.count, fun id same => ?_⟩
  rcases second.fresh id same with known | late
  · exact first.fresh id known
  · exact .inr (first.count.trans_lt late)

theorem later_kept (machine after : Machine) (count : after.eventCount = machine.eventCount)
    (event : after.poolEvent = machine.poolEvent) : machine.Later after :=
  ⟨count.symm.le, fun _ same => .inl (event.symm.trans same)⟩

-- An event of the host that was registered before does not ask the pool now.
theorem later_other (machine after : Machine) (later : machine.Later after) (id : EventId)
    (known : id.number ≤ machine.eventCount) (other : machine.poolEvent ≠ some id) : after.poolEvent ≠ some id := by
  intro same
  rcases later.fresh id same with old | late
  · exact other old
  · omega

section Polling
variable (machine : Machine) (polling : machine.Polling)
include polling

-- The entry of an event that does not ask the pool is changed.
theorem polling_set (id : EventId) (event : Option Microevent) (other : machine.poolEvent ≠ some id)
    (plain : event ≠ some .pollPool) :
    Machine.Polling { machine with
      events := machine.events.map fun entry => if entry.1 = id then (id, event) else entry } := by
  have names : (machine.events.map fun entry => if entry.1 = id then (id, event) else entry).map Prod.fst =
      machine.events.map Prod.fst := by
    rw [List.map_map]
    refine List.map_congr_left fun entry _ => ?_
    by_cases same : entry.1 = id
    · simp only [Function.comp, same, if_true]
    · simp only [Function.comp, if_neg same]
  constructor
  · intro entry member
    have listed := names ▸ List.mem_map_of_mem (f := Prod.fst) member
    obtain ⟨old, known, same⟩ := List.mem_map.mp listed
    exact same ▸ polling.numbered old known
  · rw [names]
    exact polling.distinct
  · intro poll same
    -- The event that asks the pool is another one, so its entry is not touched.
    have different : poll ≠ id := fun is => other (is ▸ same)
    exact List.mem_map.mpr ⟨_, polling.registered poll same, if_neg different⟩
  · intro poll member
    obtain ⟨entry, known, same⟩ := List.mem_map.mp member
    by_cases here : entry.1 = id
    · rw [if_pos here] at same
      exact absurd (congrArg Prod.snd same) plain
    · rw [if_neg here] at same
      exact polling.only poll (same ▸ known)
  · exact polling.busy
  · exact polling.named

theorem polling_filtered (keep : EventId × Option Microevent → Bool)
    (kept : ∀ id, machine.poolEvent = some id → keep (id, some .pollPool) = true) :
    Machine.Polling { machine with events := machine.events.filter keep } := by
  constructor
  · exact fun entry member => polling.numbered entry (List.mem_filter.mp member).1
  · exact polling.distinct.sublist (List.filter_sublist.map Prod.fst)
  · exact fun id same => List.mem_filter.mpr ⟨polling.registered id same, kept id same⟩
  · exact fun id member => polling.only id (List.mem_filter.mp member).1
  · exact polling.busy
  · exact polling.named

-- An event that is registered has a number that none had before.
theorem registered_bound (event : Microevent) (entry : EventId × Option Microevent)
    (member : entry ∈ machine.events ++ [(⟨machine.eventCount + 1⟩, some event)]) :
    entry.1.number ≤ machine.eventCount + 1 := by
  rcases List.mem_append.mp member with known | new
  · exact (polling.numbered entry known).trans (Nat.le_succ _)
  · rw [List.mem_singleton.mp new]

theorem registered_distinct (event : Microevent) :
    ((machine.events ++ [((⟨machine.eventCount + 1⟩ : EventId), some event)]).map Prod.fst).Nodup := by
  rw [List.map_append, List.map_singleton]
  refine polling.distinct.append (List.nodup_singleton _) fun id known new => ?_
  obtain ⟨entry, member, rfl⟩ := List.mem_map.mp known
  have bound := polling.numbered entry member
  rw [List.mem_singleton.mp new] at bound
  exact absurd bound (Nat.not_succ_le_self _)

theorem polling_fresh (event : Microevent) (plain : event ≠ .pollPool) :
    Machine.Polling { machine with
      eventCount := machine.eventCount + 1
      events := machine.events ++ [(⟨machine.eventCount + 1⟩, some event)] } := by
  refine ⟨machine.registered_bound polling event, machine.registered_distinct polling event, ?_, ?_, polling.busy, ?_⟩
  · exact fun id same => List.mem_append_left _ (polling.registered id same)
  · intro id member
    rcases List.mem_append.mp member with known | new
    · exact polling.only id known
    · cases List.mem_singleton.mp new
      exact absurd rfl plain
  · exact fun entry member => ⟨(polling.named entry member).1.trans (Nat.le_succ _), (polling.named entry member).2⟩

-- The pool is asked for the first time, or again after it had nothing more to tell.
theorem polling_begun (unasked : machine.poolEvent = none) :
    Machine.Polling { machine with
      eventCount := machine.eventCount + 1
      events := machine.events ++ [(⟨machine.eventCount + 1⟩, some .pollPool)]
      poolEvent := some ⟨machine.eventCount + 1⟩ } := by
  refine ⟨machine.registered_bound polling .pollPool, machine.registered_distinct polling .pollPool, ?_, ?_, ?_, ?_⟩
  · intro id same
    cases same
    exact List.mem_append_right _ (List.mem_singleton.mpr rfl)
  · intro id member
    rcases List.mem_append.mp member with known | new
    · exact absurd (polling.only id known) (unasked ▸ by simp)
    · cases List.mem_singleton.mp new
      rfl
  · exact fun _ none => by cases none
  · intro entry member
    have bound := (polling.named entry member).1
    refine ⟨bound.trans (Nat.le_succ _), fun same => ?_⟩
    rw [← Option.some.inj same] at bound
    exact absurd bound (Nat.not_succ_le_self _)

theorem unknown_fresh : machine.poolEvent ≠ some ⟨machine.eventCount + 1⟩ := fun same =>
  absurd (polling.numbered _ (polling.registered _ same)) (Nat.not_succ_le_self _)

end Polling

theorem polling_named (machine : Machine) (polling : machine.Polling) (name : String) (id : EventId)
    (known : id.number ≤ machine.eventCount) (other : machine.poolEvent ≠ some id) :
    Machine.Polling { machine with handles := { machine.handles with events := machine.handles.events.insert name id } } :=
  ⟨polling.numbered, polling.distinct, polling.registered, polling.only, polling.busy,
    NameMap.all_insert _ machine.handles.events polling.named name id ⟨known, other⟩⟩

-- Nothing is left to ask the pool for.
theorem polling_ended (machine : Machine) (polling : machine.Polling) (idle : machine.jobs = []) (id : EventId)
    (asked : machine.poolEvent = some id) :
    Machine.Polling { machine with poolEvent := none, events := machine.events.filter fun entry => entry.1 ≠ id } := by
  constructor
  · exact fun entry member => polling.numbered entry (List.mem_filter.mp member).1
  · exact polling.distinct.sublist (List.filter_sublist.map Prod.fst)
  · exact fun _ same => by cases same
  · intro other member
    obtain ⟨known, kept⟩ := List.mem_filter.mp member
    have same := polling.only other known
    rw [asked] at same
    cases same
    simp at kept
  · exact fun busy => absurd idle busy
  · exact fun entry member => ⟨(polling.named entry member).1, by simp⟩

section Changes
variable (machine : Machine) (tidy : machine.Tidy)
include tidy

theorem tidy_classes (classes : ClassTable) (mild : classes.Mild) : Tidy { machine with classes := classes } :=
  ⟨{ tidy.mild with classes := mild }, { tidy.polling with }⟩

theorem tidy_frames (frames : Arena) (mild : frames.Mild) : Tidy { machine with frames := frames } :=
  ⟨{ tidy.mild with frames := mild }, { tidy.polling with }⟩

theorem tidy_tasks (tasks : TaskTable) (mild : ∀ task value, tasks.state? task = some (.ready value) → value.Mild) :
    Tidy { machine with tasks := tasks } :=
  ⟨{ tidy.mild with tasks := mild }, { tidy.polling with }⟩

theorem tidy_slots (slots : NameMap Value) (mild : slots.All Value.Mild) :
    Tidy { machine with handles := { machine.handles with slots := slots } } :=
  ⟨{ tidy.mild with slots := mild }, { tidy.polling with }⟩

theorem tidy_microtasks (microtasks : List Microtask) (mild : ∀ microtask ∈ microtasks, microtask.Mild) :
    Tidy { machine with microtasks := microtasks } :=
  ⟨{ tidy.mild with microtasks := mild }, { tidy.polling with }⟩

theorem tidy_queued (microtask : Microtask) (mild : microtask.Mild) :
    Tidy { machine with microtasks := machine.microtasks ++ [microtask] } := by
  refine machine.tidy_microtasks tidy _ fun other member => ?_
  rcases List.mem_append.mp member with known | new
  · exact tidy.mild.microtasks other known
  · exact List.mem_singleton.mp new ▸ mild

theorem tidy_taken (microtask : Microtask) (rest : List Microtask) (next : machine.microtasks = microtask :: rest) :
    Tidy { machine with microtasks := rest } :=
  machine.tidy_microtasks tidy rest fun other member =>
    tidy.mild.microtasks other (next ▸ List.mem_cons_of_mem _ member)

-- A pool that is asked may have got any jobs.
theorem tidy_pool (pool : Option Pool) (asked : machine.poolEvent ≠ none) : Tidy { machine with pool := pool } :=
  ⟨{ tidy.mild with }, { tidy.polling with busy := fun _ => asked }⟩

theorem mild_registered (id : EventId) (event : Microevent) (mild : event.Mild) :
    ∀ entry ∈ machine.events ++ [(id, some event)], ∀ content, entry.2 = some content → content.Mild := by
  intro entry member content same
  rcases List.mem_append.mp member with known | new
  · exact tidy.mild.events entry known content same
  · rw [List.mem_singleton.mp new] at same
    exact Option.some.inj same ▸ mild

theorem tidy_begun (unasked : machine.poolEvent = none) : Tidy { machine with
    eventCount := machine.eventCount + 1
    events := machine.events ++ [(⟨machine.eventCount + 1⟩, some .pollPool)]
    poolEvent := some ⟨machine.eventCount + 1⟩ } :=
  ⟨{ tidy.mild with events := machine.mild_registered tidy _ .pollPool fun _ _ same => by cases same },
    machine.polling_begun tidy.polling unasked⟩

end Changes

theorem named_mild (names : List (String × Value)) (frames : Arena) (namesMild : ∀ entry ∈ names, entry.2.Mild)
    (mild : frames.Mild) : (named names frames).Mild := by
  induction names generalizing frames with
  | nil => exact mild
  | cons entry rest ih =>
    have later := fun other member => namesMild other (List.mem_cons_of_mem entry member)
    unfold named
    rw [List.foldl_cons]
    cases bound : frames.setVariable Arena.root entry.1 entry.2 with
    | error cause => exact ih frames later mild
    | ok after =>
      exact ih after later (frames.mild_set_variable after mild Arena.root entry.1 entry.2
        (namesMild entry List.mem_cons_self) bound)

theorem start_tidy (config : Config) : (Machine.start config).Tidy := by
  have outermost : Arena.initial.Mild := by
    intro slot member frame same
    cases List.mem_singleton.mp (Array.mem_toList_iff.mpr member)
    cases same
    exact ⟨NameMap.all_empty _, fun _ none => by cases none⟩
  have plain : (Machine.initial config).classes.Plain := ClassTable.plain_intrinsic
  have frames : (Machine.start config).frames.Mild := by
    rw [show (Machine.start config).frames = _ from (Machine.initial config).prelude_frames]
    exact named_mild _ _ (fun entry member => entry.2.plain_mild ((Machine.initial config).given_plain plain entry member))
      outermost
  refine ⟨⟨ClassTable.plain_mild _ plain, frames, ?_, ?_, ?_, ?_, NameMap.all_empty _⟩, ⟨?_, List.nodup_nil, ?_, ?_, ?_,
    NameMap.all_empty _⟩⟩
  · exact fun task value ready => absurd ((TaskTable.state_empty task).symm.trans ready) (by simp)
  iterate 3 exact fun _ member => by cases member
  · exact fun _ member => by cases member
  · exact fun _ same => by cases same
  · exact fun _ member => by cases member
  · exact fun busy => absurd rfl busy

end Machine

end CoopScript
