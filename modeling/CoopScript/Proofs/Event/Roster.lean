import CoopScript.Machine.State

/-!
What happens to the events of a machine, as a log, and what the log tells of them: which are registered, which are being
invoked, and which passes over them are going on. An event is invoked by a pass, only while it is registered, and never
within an invocation of its own.
-/
set_option autoImplicit false
namespace CoopScript

/-- A pass is opened and closed, an invocation begins and ends, also when it fails; then it has no status. -/
inductive Happening where
  | registered (id : EventId)
  | removed (id : EventId)
  | swept (kept : Option EventId)
  | opened
  | closed
  | begun (id : EventId)
  | ended (id : EventId) (status : Option EventStatus)

namespace Happening

def removes (id : EventId) : Happening → Bool
  | removed other => id = other
  | swept kept => some id ≠ kept
  | ended other status => id = other && status = some .done
  | _ => false

def registered? : Happening → Option EventId
  | registered id => some id
  | _ => none

def listedAfter (listed : List EventId) (happening : Happening) : List EventId :=
  listed.filter (fun id => !happening.removes id) ++ happening.registered?.toList

def listedFrom (listed : List EventId) (log : List Happening) : List EventId := log.foldl listedAfter listed

def listed (log : List Happening) : List EventId := listedFrom [] log

def runningAfter (running : List EventId) : Happening → List EventId
  | begun id => id :: running
  | ended id _ => running.erase id
  | _ => running

def running (log : List Happening) : List EventId := log.foldl runningAfter []

-- The events that a pass invokes itself, from a place that is so many passes within it until it is closed.
def invokedFrom : Nat → List Happening → List EventId
  | _, [] => []
  | depth, opened :: log => invokedFrom (depth + 1) log
  | 0, closed :: _ => []
  | depth + 1, closed :: log => invokedFrom depth log
  | 0, begun id :: log => id :: invokedFrom 0 log
  | depth, _ :: log => invokedFrom depth log

def invoked (log : List Happening) : List EventId := invokedFrom 0 log

theorem listed_after_kept (listed : List EventId) (happening : Happening) (kept : ∀ id, happening.removes id = false) :
    listedAfter listed happening = listed ++ happening.registered?.toList := by
  rw [listedAfter, List.filter_eq_self.mpr fun id _ => by rw [kept]; rfl]

theorem listed_from_append (listed : List EventId) (log more : List Happening) :
    listedFrom listed (log ++ more) = listedFrom (listedFrom listed log) more := List.foldl_append

-- What was there at first comes first, in its order, unless it has been removed.
theorem listed_from_split (before : List EventId) (log : List Happening) :
    listedFrom before log = before.filter (fun id => !log.any (removes id)) ++ listed log := by
  induction log generalizing before with
  | nil => exact ((List.append_nil _).trans (List.filter_eq_self.mpr fun _ _ => rfl)).symm
  | cons happening log ih =>
    have unrolled (ids : List EventId) : listedFrom ids (happening :: log) = listedFrom (listedAfter ids happening) log := rfl
    rw [listed, unrolled, unrolled, ih, ih (listedAfter [] happening), ← List.append_assoc]
    simp [listedAfter, List.filter_append, List.filter_filter, Bool.and_comm]

theorem mem_listed_from (before : List EventId) (log : List Happening) (id : EventId) (member : id ∈ listedFrom before log) :
    id ∈ before ∨ .registered id ∈ log := by
  induction log generalizing before with
  | nil => exact .inl member
  | cons happening log ih =>
    rcases ih (listedAfter before happening) member with early | late
    · rcases List.mem_append.mp early with kept | new
      · exact .inl (List.mem_filter.mp kept).1
      · cases happening <;> simp only [registered?, Option.toList, List.not_mem_nil, List.mem_singleton] at new
        subst new
        exact .inr (List.mem_cons_self ..)
    · exact .inr (List.mem_cons_of_mem _ late)

end Happening

-- What is going on: a pass that has these events before it, or an invocation.
inductive Activity where
  | pass (waiting : List EventId)
  | invocation (id : EventId)

def Activity.invoked? : Activity → Option EventId
  | pass _ => none
  | invocation id => some id

-- Where a log has led to. `count` is how many events have been registered, and the innermost activity comes first.
structure Roster where
  listed : List EventId
  count : Nat
  activities : List Activity

namespace Roster

def running (roster : Roster) : List EventId := roster.activities.filterMap Activity.invoked?

def empty : Roster := ⟨[], 0, []⟩

-- What may happen next, and where it leads.
inductive Follows : Roster → Happening → Roster → Prop where
  | registered (listed : List EventId) (count : Nat) (activities : List Activity) :
      Follows ⟨listed, count, activities⟩ (.registered ⟨count + 1⟩) ⟨listed ++ [⟨count + 1⟩], count + 1, activities⟩
  | removed (listed : List EventId) (count : Nat) (activities : List Activity) (id : EventId) :
      Follows ⟨listed, count, activities⟩ (.removed id) ⟨listed.filter (· ≠ id), count, activities⟩
  | swept (listed : List EventId) (count : Nat) (activities : List Activity) (kept : Option EventId) :
      Follows ⟨listed, count, activities⟩ (.swept kept) ⟨listed.filter (some · = kept), count, activities⟩
  | opened (listed : List EventId) (count : Nat) (activities : List Activity) :
      Follows ⟨listed, count, activities⟩ .opened ⟨listed, count, .pass listed :: activities⟩
  | closed (listed : List EventId) (count : Nat) (activities : List Activity) (waiting : List EventId) :
      Follows ⟨listed, count, .pass waiting :: activities⟩ .closed ⟨listed, count, activities⟩
  | begun (listed : List EventId) (count : Nat) (activities : List Activity) (skipped waiting : List EventId) (id : EventId)
      (known : id ∈ listed) (still : .invocation id ∉ activities) :
      Follows ⟨listed, count, .pass (skipped ++ id :: waiting) :: activities⟩ (.begun id)
        ⟨listed, count, .invocation id :: .pass waiting :: activities⟩
  | ended (listed : List EventId) (count : Nat) (activities : List Activity) (id : EventId) (status : Option EventStatus) :
      Follows ⟨listed, count, .invocation id :: activities⟩ (.ended id status)
        ⟨if status = some .done then listed.filter (· ≠ id) else listed, count, activities⟩

inductive Course : Roster → List Happening → Roster → Prop where
  | none (roster : Roster) : Course roster [] roster
  | more (roster next after : Roster) (happening : Happening) (log : List Happening)
      (follows : roster.Follows happening next) (course : Course next log after) : Course roster (happening :: log) after

theorem course_append (roster middle after : Roster) (log more : List Happening) (first : roster.Course log middle)
    (second : middle.Course more after) : roster.Course (log ++ more) after := by
  induction first with
  | none => exact second
  | more roster next middle happening log follows _ ih => exact .more roster next after happening _ follows (ih second)

theorem course_split (roster after : Roster) (log more : List Happening) (course : roster.Course (log ++ more) after) :
    ∃ middle, roster.Course log middle ∧ middle.Course more after := by
  induction log generalizing roster with
  | nil => exact ⟨roster, .none roster, course⟩
  | cons happening log ih =>
    cases course with
    | more _ next _ _ _ follows course =>
      obtain ⟨middle, first, second⟩ := ih next course
      exact ⟨middle, .more roster next middle happening log follows first, second⟩

-- Events are numbered as they are registered, and no invocation is within another one of the same event.
structure Sound (roster : Roster) : Prop where
  ascending : roster.listed.Pairwise (·.number < ·.number)
  counted : ∀ id ∈ roster.listed, id.number ≤ roster.count
  once : roster.running.Nodup
  registered : ∀ id ∈ roster.running, id.number ≤ roster.count

theorem mem_running (roster : Roster) (id : EventId) : id ∈ roster.running ↔ .invocation id ∈ roster.activities := by
  unfold running
  rw [List.mem_filterMap]
  constructor
  · rintro ⟨activity, member, same⟩
    cases activity with
    | pass => cases same
    | invocation other =>
      cases same
      exact member
  · exact fun member => ⟨_, member, rfl⟩

theorem sound_empty : empty.Sound := ⟨.nil, fun _ member => (nomatch member), .nil, fun _ member => (nomatch member)⟩

section Steps
variable (roster next after : Roster) (happening : Happening) (log : List Happening)

theorem follows_listed (follows : roster.Follows happening next) :
    next.listed = Happening.listedAfter roster.listed happening := by
  cases follows with
  | registered | opened | closed | begun =>
    rw [Happening.listed_after_kept _ _ fun _ => rfl]
    simp [Happening.registered?]
  | removed | swept => simp [Happening.listedAfter, Happening.removes, Happening.registered?]
  | ended listed count activities id status =>
    by_cases finished : status = some .done
    · simp [Happening.listedAfter, Happening.removes, Happening.registered?, finished]
    · rw [Happening.listed_after_kept _ _ fun _ => by simp [Happening.removes, finished]]
      simp [Happening.registered?, finished]

theorem follows_running (follows : roster.Follows happening next) :
    next.running = Happening.runningAfter roster.running happening := by
  cases follows with
  | begun => rfl
  | ended listed count activities id status => exact (List.erase_cons_head ..).symm
  | _ => rfl

theorem follows_sound (sound : roster.Sound) (follows : roster.Follows happening next) : next.Sound := by
  obtain ⟨ascending, counted, once, registered⟩ := sound
  cases follows with
  | registered listed count activities =>
    refine ⟨?_, ?_, once, fun id member => Nat.le_succ_of_le (registered id member)⟩
    · refine List.pairwise_append.mpr ⟨ascending, List.pairwise_singleton _ _, fun early member late last => ?_⟩
      rw [List.mem_singleton.mp last]
      exact Nat.lt_succ_of_le (counted early member)
    · intro id member
      rcases List.mem_append.mp member with early | last
      · exact Nat.le_succ_of_le (counted id early)
      · exact Nat.le_of_eq (congrArg EventId.number (List.mem_singleton.mp last))
  | removed | swept =>
    exact ⟨ascending.filter _, fun id member => counted id (List.mem_filter.mp member).1, once, registered⟩
  | opened | closed => exact ⟨ascending, counted, once, registered⟩
  | begun listed count activities skipped waiting id known still =>
    refine ⟨ascending, counted, List.nodup_cons.mpr ⟨fun member => ?_, once⟩, fun other member => ?_⟩
    · exact still ((mem_running ⟨listed, count, activities⟩ id).mp member)
    · rcases List.mem_cons.mp member with rfl | member
      · exact counted other known
      · exact registered other member
  | ended listed count activities id status =>
    have fewer : ∀ other ∈ (if status = some .done then listed.filter (· ≠ id) else listed), other ∈ listed := by
      intro other member
      split at member
      · exact (List.mem_filter.mp member).1
      · exact member
    refine ⟨?_, fun other member => counted other (fewer other member), (List.nodup_cons.mp once).2, fun other member =>
      registered other (List.mem_cons_of_mem _ member)⟩
    show List.Pairwise _ (if _ then _ else _)
    split
    · exact ascending.filter _
    · exact ascending

theorem course_sound (sound : roster.Sound) (course : roster.Course log after) : after.Sound := by
  induction course with
  | none => exact sound
  | more roster next after happening log follows _ ih => exact ih (follows_sound roster next happening sound follows)

theorem course_listed (course : roster.Course log after) : after.listed = Happening.listedFrom roster.listed log := by
  induction course with
  | none => rfl
  | more roster next after happening log follows _ ih =>
    rw [ih, follows_listed roster next happening follows]
    rfl

theorem course_running (course : roster.Course log after) :
    after.running = log.foldl Happening.runningAfter roster.running := by
  induction course with
  | none => rfl
  | more roster next after happening log follows _ ih =>
    rw [ih, follows_running roster next happening follows]
    rfl

theorem course_registered (course : roster.Course log after) : roster.count ≤ after.count ∧
    ∀ id, .registered id ∈ log → roster.count < id.number ∧ id.number ≤ after.count := by
  induction course with
  | none => exact ⟨Nat.le_refl _, fun _ member => (nomatch member)⟩
  | more roster next after happening log follows _ ih =>
    have grows : roster.count ≤ next.count := by
      cases follows with
      | registered => exact Nat.le_succ _
      | _ => exact Nat.le_refl _
    refine ⟨Nat.le_trans grows ih.1, fun id member => ?_⟩
    rcases List.mem_cons.mp member with rfl | member
    · cases follows with
      | registered listed count activities => exact ⟨Nat.lt_succ_self _, ih.1⟩
    · exact ⟨Nat.lt_of_le_of_lt grows (ih.2 id member).1, (ih.2 id member).2⟩

theorem course_invoked (course : roster.Course log after) (inner outer : List Activity) (waiting : List EventId)
    (going : roster.activities = inner ++ .pass waiting :: outer) :
    (Happening.invokedFrom (inner.countP (·.invoked?.isNone)) log).Sublist waiting := by
  induction course generalizing inner waiting with
  | none => exact List.nil_sublist _
  | more roster next after happening log follows _ ih =>
    cases follows with
    | registered listed count activities => simpa only [Happening.invokedFrom] using ih inner waiting going
    | removed listed count activities id => simpa only [Happening.invokedFrom] using ih inner waiting going
    | swept listed count activities kept => simpa only [Happening.invokedFrom] using ih inner waiting going
    | opened listed count activities =>
      have deeper := ih (.pass listed :: inner) waiting (congrArg (_ :: ·) going)
      rwa [List.countP_cons_of_pos rfl] at deeper
    | closed listed count activities left =>
      cases inner with
      | nil => exact List.nil_sublist _
      | cons first inner =>
        obtain ⟨rfl, rest⟩ := List.cons.inj going
        rw [List.countP_cons_of_pos rfl]
        exact ih inner waiting rest
    | begun listed count activities skipped left id known still =>
      cases inner with
      | nil =>
        obtain ⟨same, rfl⟩ := List.cons.inj going
        cases same
        exact ((ih [.invocation id] left rfl).cons_cons id).trans (List.sublist_append_right skipped _)
      | cons first inner =>
        obtain ⟨rfl, rest⟩ := List.cons.inj going
        have deeper := ih (.invocation id :: .pass left :: inner) waiting (congrArg (_ :: _ :: ·) rest)
        rw [List.countP_cons_of_neg (by simp [Activity.invoked?]), List.countP_cons_of_pos rfl] at deeper
        rw [List.countP_cons_of_pos rfl]
        exact deeper
    | ended listed count activities id status =>
      cases inner with
      | nil => cases (List.cons.inj going).1
      | cons first inner =>
        obtain ⟨rfl, rest⟩ := List.cons.inj going
        rw [List.countP_cons_of_neg (by simp [Activity.invoked?])]
        simpa only [Happening.invokedFrom] using ih inner waiting rest

end Steps

end Roster

open Happening in
/-- Events are attended to as they should be. An event is invoked while it is registered and not being invoked already. A
pass invokes events that were registered when it was opened, in their order and each at most once. After an invocation the
event is registered unless it is done or has been removed meanwhile, and the events that were there before keep their
places. What has been removed is not invoked again, and no event is registered twice. -/
structure Attended (log : List Happening) : Prop where
  begun : ∀ front id back, log = front ++ .begun id :: back → id ∈ listed front ∧ id ∉ running front
  pass : ∀ front back, log = front ++ .opened :: back → (invoked back).Sublist (listed front) ∧ (listed front).Nodup
  returned : ∀ front id middle status back, log = front ++ .begun id :: (middle ++ .ended id status :: back) →
    let after := listed (front ++ .begun id :: (middle ++ [.ended id status]))
    (id ∈ after ↔ status ≠ some .done ∧ ∀ happening ∈ middle, happening.removes id = false) ∧
      ∃ later, after = (listed front).filter (· ∈ after) ++ later ∧ ∀ other ∈ later, other ∉ listed front
  gone : ∀ front happening back id, log = front ++ happening :: back → id ∈ listed front → happening.removes id = true →
    .begun id ∉ back
  fresh : ∀ front id back, log = front ++ .registered id :: back → .registered id ∉ front

namespace Happening
open Roster (course_split course_sound course_listed course_running course_registered course_invoked mem_running)
variable (after : Roster) (log : List Happening) (course : Roster.empty.Course log after)
include course

-- The roster at a moment of a course, and what is still to come.
theorem course_at (front back : List Happening) (split : log = front ++ back) :
    ∃ roster, Roster.empty.Course front roster ∧ roster.Sound ∧ roster.listed = listed front ∧ roster.running = running front ∧
      roster.Course back after := by
  subst split
  obtain ⟨roster, first, rest⟩ := course_split .empty after front back course
  exact ⟨roster, first, course_sound .empty roster front Roster.sound_empty first, course_listed .empty roster front first,
    course_running .empty roster front first, rest⟩

theorem course_begun (front back : List Happening) (id : EventId) (split : log = front ++ .begun id :: back) :
    id ∈ listed front ∧ id ∉ running front := by
  obtain ⟨roster, _, _, known, going, rest⟩ := course_at after log course front _ split
  rw [← known, ← going]
  cases rest with
  | more _ _ _ _ _ follows =>
    cases follows with
    | begun listed count activities skipped waiting id present still =>
      exact ⟨present, fun member => still ((mem_running ⟨listed, count, activities⟩ id).mp member)⟩

-- What is registered later is not among what was there before.
theorem course_later (front tail back : List Happening) (split : log = front ++ (tail ++ back)) (id : EventId)
    (late : id ∈ listed tail) : id ∉ listed front := by
  obtain ⟨roster, _, sound, known, _, rest⟩ := course_at after log course front _ split
  obtain ⟨middle, course, _⟩ := course_split roster after tail back rest
  intro early
  rw [← known] at early
  rcases mem_listed_from [] tail id late with none | registered
  · cases none
  · have more := ((course_registered roster middle tail course).2 id registered).1
    exact absurd (sound.counted id early) (Nat.not_le.mpr more)

-- What was there before is there later unless it has been removed.
theorem course_stays (front tail back : List Happening) (split : log = front ++ (tail ++ back)) (id : EventId)
    (early : id ∈ listed front) : id ∈ listed (front ++ tail) ↔ tail.any (removes id) = false := by
  have late := course_later after log course front tail back split id
  unfold listed at early late ⊢
  rw [listed_from_append, listed_from_split, List.mem_append, List.mem_filter, Bool.not_eq_true']
  exact ⟨fun member => member.elim And.right fun new => absurd early (late new), fun kept => .inl ⟨early, kept⟩⟩

theorem course_returned (front tail back : List Happening) (split : log = front ++ (tail ++ back)) :
    ∃ later, listed (front ++ tail) = (listed front).filter (· ∈ listed (front ++ tail)) ++ later ∧
      ∀ other ∈ later, other ∉ listed front := by
  refine ⟨listed tail, ?_, fun other late => course_later after log course front tail back split other late⟩
  have stays := course_stays after log course front tail back split
  have parts : listed (front ++ tail) = (listed front).filter (fun id => !tail.any (removes id)) ++ listed tail := by
    rw [← listed_from_split]
    exact listed_from_append [] front tail
  rw [List.filter_congr fun id early => ?_, ← parts]
  rw [Bool.eq_iff_iff, decide_eq_true_iff, Bool.not_eq_true', stays id early]

-- Whatever goes its course is attended to as it should be.
theorem course_attended : Attended log where
  begun front id back split := course_begun after log course front back id split
  pass front back split := by
    obtain ⟨roster, _, sound, known, _, rest⟩ := course_at after log course front _ split
    rw [← known]
    refine ⟨?_, sound.ascending.imp fun less same => absurd less (by simp [same])⟩
    cases rest with
    | more _ _ _ _ _ follows rest =>
      cases follows with
      | opened listed count activities => exact course_invoked _ after back rest [] activities listed rfl
  returned front id middle status back split := by
    have whole : log = front ++ ((.begun id :: (middle ++ [.ended id status])) ++ back) := by simp [split]
    have known := (course_begun after log course front _ id split).1
    refine ⟨?_, course_returned after log course front _ back whole⟩
    rw [course_stays after log course front _ back whole id known]
    simp only [List.any_cons, List.any_append, List.any_nil, Bool.or_false, Bool.or_eq_false_iff, List.any_eq_false]
    simp only [removes, decide_true, Bool.true_and, decide_eq_false_iff_not, Bool.not_eq_true]
    exact ⟨fun kept => ⟨kept.2.2, kept.2.1⟩, fun kept => ⟨trivial, kept.2, kept.1⟩⟩
  gone front happening back id split known removed member := by
    obtain ⟨between, rest, rfl⟩ := List.append_of_mem member
    have whole : log = front ++ ((happening :: between) ++ .begun id :: rest) := by simp [split]
    have still := (course_begun after log course (front ++ happening :: between) rest id (by simp [split])).1
    have kept := (course_stays after log course front _ _ whole id known).mp still
    rw [List.any_cons, removed, Bool.true_or] at kept
    cases kept
  fresh front id back split early := by
    obtain ⟨roster, first, _, _, _, rest⟩ := course_at after log course front _ split
    have old := ((course_registered .empty roster front first).2 id early).2
    have new := ((course_registered roster after _ rest).2 id (List.mem_cons_self ..)).1
    exact absurd old (Nat.not_le.mpr new)

end Happening

end CoopScript
