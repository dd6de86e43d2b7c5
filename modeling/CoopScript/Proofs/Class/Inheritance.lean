import CoopScript.Host.Perform
import CoopScript.Proofs.Class.Ancestry
import CoopScript.Proofs.Machine.Binding

set_option autoImplicit false
namespace CoopScript

namespace NameMap
variable {α : Type} (map later : NameMap α)

-- Every name is bound once.
def Distinct : Prop := map.names.Nodup

theorem find_absent (name : String) (absent : name ∉ map.names) : map.find? name = none := by
  have unknown := map.contains_names name
  rw [List.contains_eq_mem, decide_eq_false absent] at unknown
  exact Option.not_isSome_iff_eq_none.mp (Bool.eq_false_iff.mp unknown)

theorem insert_bound (name : String) (value : α) (bound : name ∈ map.names) : (map.insert name value).names = map.names := by
  obtain ⟨entries⟩ := map
  simp only [insert, names] at bound ⊢
  induction entries with
  | nil => cases bound
  | cons entry rest ih =>
    rw [place]
    by_cases here : entry.1 = name
    · rw [if_pos here]
      rfl
    · rw [if_neg here, List.map_cons, List.map_cons, ih (List.mem_of_ne_of_mem (Ne.symm here) bound)]

theorem distinct_insert (name : String) (value : α) (distinct : map.Distinct) : (map.insert name value).Distinct := by
  by_cases bound : name ∈ map.names
  · rw [Distinct, map.insert_bound name value bound]
    exact distinct
  · rw [Distinct, map.insert_absent name value bound, names, List.map_append]
    refine distinct.append (List.nodup_singleton _) fun other listed here => bound ?_
    obtain rfl : other = name := List.mem_singleton.mp here
    exact listed

theorem distinct_extend (distinct : map.Distinct) : (map.extend later).Distinct := by
  obtain ⟨entries⟩ := later
  induction entries generalizing map with
  | nil => exact distinct
  | cons entry rest ih => exact ih _ (map.distinct_insert entry.1 entry.2 distinct)

theorem distinct_listed (entries : List (String × α)) : (ofList entries).Distinct :=
  distinct_extend empty ⟨entries⟩ List.nodup_nil

theorem find_extend (distinct : later.Distinct) (name : String) :
    (map.extend later).find? name = (later.find? name).or (map.find? name) := by
  obtain ⟨entries⟩ := later
  induction entries generalizing map with
  | nil => rfl
  | cons entry rest ih =>
    obtain ⟨once, distinct⟩ := List.nodup_cons.mp distinct
    have tail := ih (map.insert entry.1 entry.2) distinct
    rw [find?_insert] at tail
    refine Eq.trans tail ?_
    by_cases here : entry.1 = name
    · subst here
      rw [find_absent ⟨rest⟩ entry.1 once, if_pos rfl]
      simp [find?, lookup]
    · rw [if_neg (Ne.symm here)]
      simp [find?, lookup, here]

variable {β : Type} (pick : β → NameMap α)

theorem distinct_gathered (sources : List β) (distinct : map.Distinct) :
    (sources.foldl (fun merged source => merged.extend (pick source)) map).Distinct := by
  induction sources generalizing map with
  | nil => exact distinct
  | cons source rest ih => exact ih _ (map.distinct_extend (pick source) distinct)

theorem find_gathered (sources : List β) (distinct : ∀ source ∈ sources, (pick source).Distinct) (name : String) :
    (sources.foldl (fun merged source => merged.extend (pick source)) map).find? name =
      (sources.reverse.findSome? fun source => (pick source).find? name).or (map.find? name) := by
  induction sources generalizing map with
  | nil => rfl
  | cons source rest ih =>
    rw [List.foldl_cons, ih _ fun later listed => distinct later (List.mem_cons_of_mem _ listed),
      map.find_extend _ (distinct source List.mem_cons_self), List.reverse_cons, List.findSome?_append, Option.or_assoc]
    congr 2
    rw [List.findSome?_singleton]

end NameMap

theorem first_congr {α β : Type} (items : List α) (look also : α → Option β) (same : ∀ item ∈ items, look item = also item) :
    items.findSome? look = items.findSome? also := by
  rw [← List.head?_filterMap, ← List.head?_filterMap, List.filterMap_congr same]

/-- One of the two sorts of members that a class has, the public or the hidden ones: what a draft declares of it, and what the
class then holds. -/
structure Side (α : Type) where
  declared : ClassDraft → NameMap α
  merged : ClassInfo → NameMap α
  completed : ∀ table draft, merged (ClassTable.complete table draft) = table.merge merged draft.ancestors (declared draft)

namespace Side

def members : Side Value := ⟨ClassDraft.members, ClassInfo.members, fun _ _ => rfl⟩

def hidden : Side (Member Value) := ⟨ClassDraft.hidden, ClassInfo.hidden, fun _ _ => rfl⟩

variable {α : Type} (side : Side α)

-- What a class of the table holds under a name.
def held (table : ClassTable) (name : String) (id : ClassId) : Option α :=
  (table.get? id).bind fun info => (side.merged info).find? name

-- What a class declares under a name, or else what the last of its ancestors has under it that has anything; the
-- classes are given by their drafts, the last one first. Below them are the classes that every table starts with.
def resolve (name : String) : List ClassDraft → ClassId → Option α
  | [], id => side.held ClassTable.intrinsic name id
  | draft :: older, id =>
    if id.index = ClassTable.intrinsic.classes.size + older.length then
      ((side.declared draft).find? name).or (draft.ancestors.reverse.findSome? (resolve name older))
    else resolve name older id

end Side

namespace ClassTable
variable (table : ClassTable) {α : Type} (side : Side α)

def Completed : Prop := ∀ id info, table.get? id = some info → ∃ before draft, info = complete before draft

theorem completed_empty : empty.Completed := by
  intro id info found
  simp [get?, empty] at found

variable (draft : ClassDraft)

theorem Completed.add (completed : table.Completed) : (table.add draft).Completed := by
  intro id info found
  rw [get_added] at found
  by_cases last : id.index = table.classes.size
  · rw [if_pos last] at found
    cases found
    exact ⟨table, draft, rfl⟩
  · rw [if_neg last] at found
    exact completed id info found

theorem Completed.rebuild (completed : table.Completed) (place : ClassId) : (table.rebuild place draft).Completed := by
  intro id info found
  rw [get?, ClassTable.rebuild, Array.getElem?_setIfInBounds] at found
  by_cases here : place.index = id.index
  · rw [if_pos here] at found
    by_cases bound : id.index < table.classes.size
    · simp only [here, bound, if_true] at found
      cases found
      exact ⟨table, draft, rfl⟩
    · simp [here, bound] at found
  · rw [if_neg here] at found
    exact completed id info found

theorem Completed.deepen (completed : table.Completed) (identity : Nat) : (table.deepen identity).Completed :=
  Completed.rebuild _ _ (Completed.rebuild _ _ completed _) _

theorem intrinsic_completed : intrinsic.Completed := by
  have foundation : foundation.Completed :=
    Completed.deepen _ (Completed.deepen _ (Completed.add _ _ (Completed.add _ _ completed_empty)) _) _
  unfold intrinsic addIntrinsic
  iterate 6 refine Completed.add _ _ ?_
  exact foundation

variable {table draft} in
theorem Completed.define (completed : table.Completed) (id : ClassId) (after : ClassTable)
    (done : table.define draft = .ok (id, after)) : after.Completed := by
  obtain ⟨_, _, _, rfl⟩ := table.define_done after draft id done
  exact completed.add table draft

theorem Grows.completed {after : ClassTable} {drafts : List ClassDraft} (grows : Grows intrinsic drafts after) :
    after.Completed := by
  induction grows with
  | start => exact intrinsic_completed
  | defined _ _ after _ id _ done ih => exact ih.define id after done
  | refused _ _ _ _ _ _ ih => exact ih

theorem Completed.distinct (completed : table.Completed) (id : ClassId) (info : ClassInfo) (found : table.get? id = some info) :
    (side.merged info).Distinct := by
  obtain ⟨before, draft, rfl⟩ := completed id info found
  rw [side.completed]
  exact NameMap.distinct_extend _ _ (NameMap.distinct_gathered _ _ _ List.nodup_nil)

theorem Completed.find_complete (completed : table.Completed) (proper : (side.declared draft).Distinct) (name : String) :
    (side.merged (table.complete draft)).find? name =
      ((side.declared draft).find? name).or (draft.ancestors.reverse.findSome? (side.held table name)) := by
  have distinct : ∀ info ∈ draft.ancestors.filterMap table.get?, (side.merged info).Distinct := by
    intro info listed
    obtain ⟨id, _, found⟩ := List.mem_filterMap.mp listed
    exact completed.distinct table side id info found
  rw [side.completed, merge, NameMap.find_extend _ _ proper, NameMap.find_gathered _ _ _ distinct, NameMap.find?_empty,
    Option.or_none, ← List.filterMap_reverse, ← List.head?_filterMap, List.filterMap_filterMap, List.head?_filterMap]
  rfl

theorem Grows.held_resolved {drafts : List ClassDraft} (grows : Grows intrinsic drafts table)
    (proper : ∀ draft ∈ drafts, (side.declared draft).Distinct) (name : String) (id : ClassId) :
    side.held table name id = side.resolve name drafts id := by
  induction grows generalizing id with
  | start => rfl
  | refused _ _ _ _ _ _ ih => exact ih proper id
  | defined older middle after draft new earlier done ih =>
    obtain ⟨_, _, _, rfl⟩ := middle.define_done after draft new done
    have older_proper : ∀ draft ∈ older, (side.declared draft).Distinct :=
      fun other listed => proper other (List.mem_cons_of_mem _ listed)
    rw [Side.resolve, Side.held, get_added, ← earlier.size]
    by_cases last : id.index = middle.classes.size
    · have complete := earlier.completed.find_complete middle side draft (proper draft List.mem_cons_self) name
      rw [if_pos last, if_pos last, Option.bind_some, complete, funext (ih older_proper)]
    · rw [if_neg last, if_neg last, ← ih older_proper id]
      rfl

theorem Grows.held_kept {after : ClassTable} {drafts : List ClassDraft} (grows : Grows table drafts after) (name : String)
    (id : ClassId) (info : ClassInfo) (found : table.get? id = some info) : side.held after name id = side.held table name id := by
  rw [Side.held, Side.held, grows.keeps id info found, found]

theorem Grows.instantiate_kept {after : ClassTable} {drafts : List ClassDraft} (grows : Grows table drafts after) (id : ClassId)
    (info : ClassInfo) (found : table.get? id = some info) (data : Data Value) :
    after.instantiate id data = table.instantiate id data := by
  rw [instantiate, instantiate, grows.keeps id info found, found]

/-- What a class that was once defined holds, however the table grew before and after. -/
theorem merged_members (newer older : List ClassDraft) (middle next : ClassTable) (id : ClassId) (before : Grows intrinsic older middle)
    (done : middle.define draft = .ok (id, next)) (later : Grows next newer table)
    (proper : ∀ other ∈ newer ++ draft :: older, (side.declared other).Distinct) :
    (∃ info, table.get? id = some info ∧ info.name = draft.name ∧ info.ancestors = draft.ancestors ∧ ∀ name,
      ((side.merged info).contains name = true ↔
        (side.declared draft).contains name = true ∨ ∃ ancestor ∈ draft.ancestors, (side.held table name ancestor).isSome = true) ∧
      (side.merged info).find? name =
        ((side.declared draft).find? name).or (draft.ancestors.reverse.findSome? (side.held table name)) ∧
      (side.merged info).find? name = side.resolve name (newer ++ draft :: older) id) ∧
    ∀ known info, next.get? known = some info →
      table.get? known = some info ∧ ∀ data, table.instantiate known data = next.instantiate known data := by
  have all_grown : Grows intrinsic (newer ++ draft :: older) table := (Grows.defined _ _ _ _ _ before done).trans _ _ later
  obtain ⟨_, known, rfl, rfl⟩ := middle.define_done next draft id done
  have there : (middle.add draft).get? ⟨middle.classes.size⟩ = some (middle.complete draft) := by rw [get_added, if_pos rfl]
  have complete := later.keeps _ _ there
  refine ⟨⟨middle.complete draft, complete, rfl, rfl, fun name => ?_⟩, fun known info found =>
    ⟨later.keeps known info found, later.instantiate_kept _ known info found⟩⟩
  have merged := before.completed.find_complete middle side draft (proper draft (by simp)) name
  have ancestors : draft.ancestors.reverse.findSome? (side.held middle name) =
      draft.ancestors.reverse.findSome? (side.held table name) := by
    refine first_congr _ _ _ fun ancestor listed => ?_
    obtain ⟨info, found⟩ := (middle.known_bound ancestor).mpr (known ancestor (List.mem_reverse.mp listed))
    have reached : Grows middle (newer ++ [draft]) table := (Grows.defined _ _ _ _ _ .start done).trans _ _ later
    exact (reached.held_kept middle side name ancestor info found).symm
  rw [ancestors] at merged
  refine ⟨?_, merged, ?_⟩
  · rw [NameMap.contains, merged, Option.isSome_or, Bool.or_eq_true, List.findSome?_isSome_iff]
    simp [NameMap.contains]
  · rw [← all_grown.held_resolved table side proper name, Side.held, complete, Option.bind_some]

-- A class with a member of the name `mark` for every flag that is given.
def marked (name : String) (ancestors : List ClassId) (marks : List Bool) : ClassDraft :=
  ⟨name, .user, ancestors, .ofList (marks.map fun mark => ("mark", intrinsic.flag mark)), .empty⟩

def lines : List ClassDraft := [marked "right" [⟨8⟩] [], marked "left" [⟨8⟩] [false], marked "base" [.object] [true]]

def linesTable : ClassTable := lines.foldr (fun draft table => table.add draft) intrinsic

theorem grows_lines : Grows intrinsic lines linesTable := by
  have base := Grows.defined [] _ _ _ _ .start (define_succeeds intrinsic (marked "base" [.object] [true]) (by decide +kernel)
    (by decide +kernel))
  have left := Grows.defined _ _ _ _ _ base (define_succeeds _ (marked "left" [⟨8⟩] [false]) (by decide +kernel) (by decide +kernel))
  exact .defined _ _ _ _ _ left (define_succeeds _ (marked "right" [⟨8⟩] []) (by decide +kernel) (by decide +kernel))

-- Where two lines of descent meet, the last one counts, also with what it has from further up.
theorem last_line_counts : ∃ (table : ClassTable) (info : ClassInfo), table.get? ⟨11⟩ = some info ∧ info.ancestors = [⟨9⟩, ⟨10⟩] ∧
    (info.members.find? "mark").bind Value.flag? = some true := by
  have both := linesTable.define_succeeds (marked "both" [⟨9⟩, ⟨10⟩] []) (by decide +kernel) (by decide +kernel)
  have later := Grows.defined [] _ _ _ _ .start ((linesTable.add (marked "both" [⟨9⟩, ⟨10⟩] [])).define_succeeds
    (marked "later" [⟨11⟩] [false]) (by decide +kernel) (by decide +kernel))
  have proper : ∀ draft ∈ [marked "later" [⟨11⟩] [false]] ++ marked "both" [⟨9⟩, ⟨10⟩] [] :: lines, draft.members.Distinct := by
    simp only [lines, List.cons_append, List.nil_append, List.forall_mem_cons]
    exact ⟨NameMap.distinct_listed _, NameMap.distinct_listed _, NameMap.distinct_listed _, NameMap.distinct_listed _,
      NameMap.distinct_listed _, fun _ listed => absurd listed List.not_mem_nil⟩
  obtain ⟨⟨info, found, -, ancestors, members⟩, -⟩ := merged_members _ .members _ _ _ _ _ _ grows_lines both later proper
  refine ⟨_, info, found, ancestors, ?_⟩
  obtain ⟨-, -, resolved⟩ := members "mark"
  exact (congrArg (Option.bind · Value.flag?) resolved).trans (by decide +kernel)

end ClassTable
end CoopScript
