import Mathlib.Logic.Relation
import Mathlib.Order.WellFounded
import CoopScript.Class.Intrinsic
import CoopScript.Host.Perform

/-!
Tables of classes as they grow. A class that is asked for is added behind the others, or refused; the classes that are there
stay as they are.
-/
set_option autoImplicit false
namespace CoopScript.ClassTable

/-- What becomes of a table while classes are asked for. Listed are the drafts of those that were not refused, the last one
first. -/
inductive Grows (table : ClassTable) : List ClassDraft → ClassTable → Prop where
  | start : Grows table [] table
  | defined (drafts : List ClassDraft) (middle after : ClassTable) (draft : ClassDraft) (id : ClassId)
      (earlier : Grows table drafts middle) (done : middle.define draft = .ok (id, after)) :
      Grows table (draft :: drafts) after
  | refused (drafts : List ClassDraft) (middle : ClassTable) (draft : ClassDraft) (cause : Cause)
      (earlier : Grows table drafts middle) (failed : middle.define draft = .error cause) : Grows table drafts middle

variable (table after : ClassTable) (draft : ClassDraft)

theorem known_bound (id : ClassId) : (∃ info, table.get? id = some info) ↔ id.index < table.classes.size :=
  ⟨fun ⟨_, found⟩ => (Array.getElem?_eq_some_iff.mp found).1, fun bound => ⟨_, Array.getElem?_eq_getElem bound⟩⟩

theorem unknown_bound (id : ClassId) : table.get? id = none ↔ table.classes.size ≤ id.index :=
  Array.getElem?_eq_none_iff

theorem get_added (id : ClassId) :
    (table.add draft).get? id = if id.index = table.classes.size then some (table.complete draft) else table.get? id := by
  simp [get?, add, Array.getElem?_push]

theorem size_added : (table.add draft).classes.size = table.classes.size + 1 := Array.size_push _

theorem define_done (id : ClassId) (done : table.define draft = .ok (id, after)) :
    table.find? draft.name = none ∧ (∀ ancestor ∈ draft.ancestors, ancestor.index < table.classes.size) ∧
      id = ⟨table.classes.size⟩ ∧ after = table.add draft := by
  unfold define at done
  split at done
  next => cases done
  next fresh =>
    split at done
    next => cases done
    next known =>
      cases done
      refine ⟨fresh, fun ancestor listed => ?_, rfl, rfl⟩
      have here := List.find?_eq_none.mp known ancestor listed
      simpa using here

theorem define_failed (cause : Cause) (failed : table.define draft = .error cause) :
    (∃ id, table.find? draft.name = some id) ∨ ∃ ancestor ∈ draft.ancestors, table.get? ancestor = none := by
  unfold define at failed
  split at failed
  next id taken => exact .inl ⟨id, taken⟩
  next =>
    split at failed
    next missing found =>
      have unknown := List.find?_some found
      exact .inr ⟨missing, List.mem_of_find?_eq_some found, (table.unknown_bound missing).mpr (by simpa using unknown)⟩
    next => cases failed

theorem define_succeeds (fresh : table.find? draft.name = none)
    (known : ∀ ancestor ∈ draft.ancestors, ancestor.index < table.classes.size) :
    table.define draft = .ok (⟨table.classes.size⟩, table.add draft) := by
  have none_missing : (draft.ancestors.find? fun ancestor => table.classes.size ≤ ancestor.index) = none :=
    List.find?_eq_none.mpr fun ancestor listed => by simpa using known ancestor listed
  simp [define, fresh, none_missing]

theorem define_keeps (id known : ClassId) (info : ClassInfo) (done : table.define draft = .ok (id, after))
    (found : table.get? known = some info) : after.get? known = some info := by
  obtain ⟨_, _, _, rfl⟩ := table.define_done after draft id done
  have bound := (table.known_bound known).mp ⟨info, found⟩
  rw [get_added, if_neg (Nat.ne_of_lt bound), found]

namespace Grows
variable {table after : ClassTable} {drafts : List ClassDraft} (grows : Grows table drafts after)
include grows

theorem keeps (id : ClassId) (info : ClassInfo) (found : table.get? id = some info) : after.get? id = some info := by
  induction grows with
  | start => exact found
  | defined drafts middle after draft new _ done ih => exact middle.define_keeps after draft new id info done ih
  | refused _ _ _ _ _ _ ih => exact ih

theorem size : after.classes.size = table.classes.size + drafts.length := by
  induction grows with
  | start => rfl
  | defined drafts middle after draft id _ done ih =>
    obtain ⟨_, _, _, rfl⟩ := middle.define_done after draft id done
    rw [size_added, ih, List.length_cons, Nat.add_assoc]
  | refused _ _ _ _ _ _ ih => exact ih

theorem trans (last : ClassTable) (more : List ClassDraft) (later : Grows after more last) :
    Grows table (more ++ drafts) last := by
  induction later with
  | start => exact grows
  | defined more middle last draft id _ done ih => exact .defined _ middle last draft id ih done
  | refused more middle draft cause _ failed ih => exact .refused _ middle draft cause ih failed

end Grows

end CoopScript.ClassTable

namespace CoopScript

-- The place of a class, but for the first two classes, which change theirs.
def ClassId.standing (id : ClassId) : Nat :=
  if id = .function then 1 else if id = .object then 0 else id.index

theorem ClassId.standing_bound (id : ClassId) (size : Nat) (founded : 2 ≤ size) :
    id.standing < size ↔ id.index < size := by
  unfold ClassId.standing
  by_cases is_function : id = .function
  · subst is_function
    simp only [if_true, ClassId.function]
    omega
  · by_cases is_object : id = .object
    · subst is_object
      rw [if_neg is_function, if_pos rfl]
      simp only [ClassId.object]
      omega
    · rw [if_neg is_function, if_neg is_object]

namespace ClassTable

def Parent (table : ClassTable) (id parent : ClassId) : Prop :=
  ∃ info, table.get? id = some info ∧ parent ∈ info.ancestors

def Indexed (table : ClassTable) : Prop :=
  ∀ name id, table.find? name = some id ↔ ∃ info, table.get? id = some info ∧ info.name = name

-- The index is right, and ancestors have a lower standing than the classes that descend from them.
structure Ranked (table : ClassTable) : Prop where
  founded : 2 ≤ table.classes.size
  indexed : table.Indexed
  falls : ∀ id parent, table.Parent id parent → parent.standing < id.standing

variable (table after : ClassTable) (draft : ClassDraft)

theorem parent_unknown (id parent : ClassId) (unknown : table.get? id = none) : ¬ table.Parent id parent :=
  fun ⟨_, found, _⟩ => Option.some_ne_none _ (found.symm.trans unknown)

theorem find_added (name : String) :
    (table.add draft).find? name = if name = draft.name then some ⟨table.classes.size⟩ else table.find? name :=
  table.byName.find?_insert draft.name name _

theorem indexed_empty : empty.Indexed := by
  intro name id
  simp [find?, get?, empty]

theorem Indexed.add (indexed : table.Indexed) (fresh : table.find? draft.name = none) : (table.add draft).Indexed := by
  intro name id
  rw [find_added, get_added]
  by_cases last : id.index = table.classes.size
  · obtain rfl : id = ⟨table.classes.size⟩ := congrArg ClassId.mk last
    by_cases named : name = draft.name
    · subst named
      simp [complete]
    · -- The place of the new class is not in the index yet.
      have unknown : table.find? name ≠ some ⟨table.classes.size⟩ := fun found => by
        obtain ⟨info, present, _⟩ := (indexed name _).mp found
        exact absurd ((table.known_bound _).mp ⟨info, present⟩) (Nat.lt_irrefl _)
      simp [named, unknown, complete, Ne.symm named]
  · rw [if_neg last]
    by_cases named : name = draft.name
    · subst named
      have absent := (indexed draft.name id).not.mp (by simp [fresh])
      have other : some (⟨table.classes.size⟩ : ClassId) ≠ some id := fun same => last (by cases same; rfl)
      rw [if_pos rfl]
      exact iff_of_false other absent
    · rw [if_neg named]
      exact indexed name id

theorem Indexed.rebuild (indexed : table.Indexed) (id : ClassId) (named : table.find? draft.name = some id) :
    (table.rebuild id draft).Indexed := by
  obtain ⟨info, found, same⟩ := (indexed draft.name id).mp named
  have bound := (table.known_bound id).mp ⟨info, found⟩
  intro name other
  refine (indexed name other).trans ?_
  by_cases here : id = other
  · subst here
    have rebuilt : (table.rebuild id draft).get? id = some (table.complete draft) := by simp [get?, ClassTable.rebuild, bound]
    simp [found, rebuilt, same, complete]
  · have kept : (table.rebuild id draft).get? other = table.get? other := by
      have apart : id.index ≠ other.index := fun same => here (congrArg ClassId.mk same)
      simp [get?, ClassTable.rebuild, apart]
    rw [kept]

theorem Ranked.present (ranked : table.Ranked) (id parent : ClassId) (declared : table.Parent id parent) :
    ∃ info, table.get? parent = some info := by
  obtain ⟨info, found, listed⟩ := declared
  have bound := (id.standing_bound _ ranked.founded).mpr ((table.known_bound id).mp ⟨info, found⟩)
  have below := ranked.falls id parent ⟨info, found, listed⟩
  exact (table.known_bound parent).mpr ((parent.standing_bound _ ranked.founded).mp (below.trans bound))

theorem Ranked.falls_along (ranked : table.Ranked) (id ancestor : ClassId)
    (line : Relation.TransGen table.Parent id ancestor) : ancestor.standing < id.standing := by
  induction line with
  | single declared => exact ranked.falls _ _ declared
  | tail _ declared ih => exact (ranked.falls _ _ declared).trans ih

theorem Ranked.founded_descent (ranked : table.Ranked) : WellFounded fun parent id => table.Parent id parent :=
  Subrelation.wf (ranked.falls _ _) (InvImage.wf ClassId.standing Nat.lt_wfRel.wf)

theorem inheritsWithin_sound (fuel : Nat) (id ancestor : ClassId) (yes : table.inheritsWithin fuel id ancestor = true) :
    Relation.ReflTransGen table.Parent id ancestor := by
  induction fuel generalizing id with
  | zero => simp [inheritsWithin] at yes
  | succ fuel ih =>
    rw [inheritsWithin, Bool.or_eq_true, decide_eq_true_eq] at yes
    rcases yes with rfl | further
    · exact .refl
    · cases found : table.get? id with
      | none => simp [found] at further
      | some info =>
        simp only [found, List.any_eq_true] at further
        obtain ⟨parent, listed, yes⟩ := further
        exact .head ⟨info, found, listed⟩ (ih parent yes)

-- Along a line of descent the standing falls, so fuel above the standing of the first class lasts to the end of it.
theorem Ranked.inheritsWithin_complete (ranked : table.Ranked) (id ancestor : ClassId)
    (line : Relation.ReflTransGen table.Parent id ancestor) (fuel : Nat) (enough : id.standing < fuel) :
    table.inheritsWithin fuel id ancestor = true := by
  induction line using Relation.ReflTransGen.head_induction_on generalizing fuel with
  | refl =>
    obtain ⟨fuel, rfl⟩ := Nat.exists_eq_add_one.mpr (Nat.zero_lt_of_lt enough)
    simp [inheritsWithin]
  | head declared _ ih =>
    obtain ⟨fuel, rfl⟩ := Nat.exists_eq_add_one.mpr (Nat.zero_lt_of_lt enough)
    have below := ranked.falls _ _ declared
    obtain ⟨info, found, listed⟩ := declared
    have further := ih fuel (by omega)
    rw [inheritsWithin, found, Bool.or_eq_true]
    exact .inr (List.any_eq_true.mpr ⟨_, listed, further⟩)

theorem Ranked.inheritsWithin_iff (ranked : table.Ranked) (id ancestor : ClassId) (fuel : Nat)
    (enough : table.classes.size ≤ fuel) :
    table.inheritsWithin fuel id ancestor = true ↔ Relation.ReflTransGen table.Parent id ancestor := by
  refine ⟨table.inheritsWithin_sound fuel id ancestor, fun line => ?_⟩
  have founded := ranked.founded
  cases found : table.get? id with
  | some info =>
    have bound := (id.standing_bound _ founded).mpr ((table.known_bound id).mp ⟨info, found⟩)
    exact ranked.inheritsWithin_complete table id ancestor line fuel (bound.trans_le enough)
  | none =>
    -- a class that is not there descends from itself alone
    obtain rfl | ⟨parent, declared, -⟩ := line.cases_head
    · obtain ⟨fuel, rfl⟩ := Nat.exists_eq_add_one.mpr (show 0 < fuel by omega)
      simp [inheritsWithin]
    · exact absurd declared (table.parent_unknown id parent found)

theorem Ranked.inherits_iff (ranked : table.Ranked) (id ancestor : ClassId) :
    table.inherits id ancestor = true ↔ Relation.ReflTransGen table.Parent id ancestor :=
  ranked.inheritsWithin_iff table id ancestor _ le_rfl

theorem Ranked.inherits_step (ranked : table.Ranked) (id ancestor : ClassId) :
    table.inherits id ancestor =
      (decide (id = ancestor) ||
        match table.get? id with
        | some info => info.ancestors.any fun parent => table.inherits parent ancestor
        | none => false) := by
  rw [Bool.eq_iff_iff, ranked.inherits_iff, Relation.ReflTransGen.cases_head_iff, Bool.or_eq_true, decide_eq_true_eq]
  refine or_congr Iff.rfl ?_
  cases found : table.get? id with
  | none => simpa using fun parent declared => absurd declared (table.parent_unknown id parent found)
  | some info =>
    simp only [List.any_eq_true, ranked.inherits_iff]
    refine exists_congr fun parent => and_congr_left fun _ => ?_
    exact ⟨fun ⟨also, found', listed⟩ => (Option.some.inj (found.symm.trans found')) ▸ listed, fun listed => ⟨info, found, listed⟩⟩

theorem Ranked.inherits_antisymm (ranked : table.Ranked) (id other : ClassId) (up : table.inherits id other = true)
    (down : table.inherits other id = true) : id = other := by
  rcases Relation.reflTransGen_iff_eq_or_transGen.mp ((ranked.inherits_iff table id other).mp up) with same | line
  · exact same.symm
  · have round := line.trans_left ((ranked.inherits_iff table other id).mp down)
    exact absurd (ranked.falls_along table id id round) (Nat.lt_irrefl _)

theorem intrinsic_names : intrinsic.classes.toList.map ClassInfo.name =
    ["function", "object", "void", "number", "string", "boolean", "array", "promise"] := by decide +kernel

theorem intrinsic_ancestors : intrinsic.classes.toList.map ClassInfo.ancestors =
    [[.object], [], [.object], [.object], [.object], [.object], [.object], [.object]] := by decide +kernel

theorem view_listed {α : Type} (view : ClassInfo → α) (id : ClassId) (info : ClassInfo) (found : table.get? id = some info) :
    (table.classes.toList.map view)[id.index]? = some (view info) := by
  rw [List.getElem?_map, Array.getElem?_toList]
  exact congrArg (Option.map view) found

theorem intrinsic_size : intrinsic.classes.size = 8 := by
  simpa using congrArg List.length intrinsic_names

theorem Indexed.deepen (indexed : table.Indexed) (identity : Nat) (first : table.find? "function" = some .function)
    (second : table.find? "object" = some .object) : (table.deepen identity).Indexed :=
  (indexed.rebuild table (table.functionDraft identity) .function first).rebuild _ _ .object second

theorem Indexed.add_intrinsic (name : String) (kind : ClassKind) (identity : Nat) (methods : List (String × Builtin))
    (indexed : table.Indexed) (fresh : table.find? name = none) : (table.addIntrinsic name kind identity methods).Indexed :=
  indexed.add table _ fresh

theorem intrinsic_indexed : intrinsic.Indexed := by
  have function := indexed_empty.add _ bareFunction rfl
  have object := function.add _ ((empty.add bareFunction).objectDraft 0) (by decide +kernel)
  have foundation : foundation.Indexed :=
    (object.deepen _ 2 (by decide +kernel) (by decide +kernel)).deepen _ 5 (by decide +kernel) (by decide +kernel)
  iterate 6 refine Indexed.add_intrinsic _ _ _ _ _ ?_ (by decide +kernel)
  exact foundation

theorem intrinsic_ranked : intrinsic.Ranked where
  founded := by rw [intrinsic_size]; decide
  indexed := intrinsic_indexed
  falls := by
    intro id parent ⟨info, found, listed⟩
    have declared := intrinsic.view_listed ClassInfo.ancestors id info found
    have bound := (intrinsic.known_bound id).mp ⟨info, found⟩
    rw [intrinsic_ancestors] at declared
    rw [intrinsic_size] at bound
    obtain ⟨place⟩ := id
    have all_fall : ∀ place < 8, ∀ ancestors, ([[.object], [], [.object], [.object], [.object], [.object], [.object],
        [.object]] : List (List ClassId))[place]? = some ancestors →
        ∀ parent ∈ ancestors, parent.standing < (ClassId.mk place).standing := by
      decide
    exact all_fall place bound _ declared parent listed

-- A class that is added stands above all that were there.
theorem Ranked.define (ranked : table.Ranked) (id : ClassId) (done : table.define draft = .ok (id, after)) : after.Ranked := by
  obtain ⟨fresh, known, -, rfl⟩ := table.define_done after draft id done
  have founded := ranked.founded
  refine ⟨by rw [size_added]; omega, ranked.indexed.add table draft fresh, ?falls⟩
  case falls =>
    intro id parent ⟨info, found, listed⟩
    rw [get_added] at found
    by_cases last : id.index = table.classes.size
    · rw [if_pos last] at found
      cases found
      have below := (parent.standing_bound _ founded).mpr (known parent listed)
      have above := (id.standing_bound _ founded).not.mpr (by omega)
      omega
    · rw [if_neg last] at found
      exact ranked.falls id parent ⟨info, found, listed⟩

theorem Grows.ranked {drafts : List ClassDraft} (grows : Grows table drafts after) (ranked : table.Ranked) : after.Ranked := by
  induction grows with
  | start => exact ranked
  | defined _ middle after draft id _ done ih => exact ih.define middle after draft id done
  | refused _ _ _ _ _ _ ih => exact ih

-- The classes as an order: `inherits` is the order that the declared ancestors generate.
structure Hierarchy (table : ClassTable) : Prop where
  named : ∀ name id, table.find? name = some id ↔ ∃ info, table.get? id = some info ∧ info.name = name
  present : ∀ id parent, table.Parent id parent → ∃ info, table.get? parent = some info
  acyclic : ∀ id, ¬ Relation.TransGen table.Parent id id
  descent : WellFounded fun parent id => table.Parent id parent
  searches : ∀ id ancestor, table.inherits id ancestor =
    (decide (id = ancestor) ||
      match table.get? id with
      | some info => info.ancestors.any fun parent => table.inherits parent ancestor
      | none => false)
  ends : ∀ id ancestor fuel, table.classes.size ≤ fuel → table.inheritsWithin fuel id ancestor = table.inherits id ancestor
  decides : ∀ id ancestor, table.inherits id ancestor = true ↔ Relation.ReflTransGen table.Parent id ancestor
  reflexive : ∀ id, table.inherits id id = true
  transitive : ∀ id middle ancestor, table.inherits id middle = true → table.inherits middle ancestor = true →
    table.inherits id ancestor = true
  antisymmetric : ∀ id other, table.inherits id other = true → table.inherits other id = true → id = other

theorem Ranked.hierarchy (ranked : table.Ranked) : table.Hierarchy where
  named := ranked.indexed
  present := ranked.present table
  acyclic := fun id round => absurd (ranked.falls_along table id id round) (Nat.lt_irrefl _)
  descent := ranked.founded_descent table
  searches := ranked.inherits_step table
  ends := by
    intro id ancestor fuel enough
    rw [Bool.eq_iff_iff, ranked.inheritsWithin_iff table id ancestor fuel enough, ranked.inherits_iff]
  decides := ranked.inherits_iff table
  reflexive := fun id => (ranked.inherits_iff table id id).mpr .refl
  transitive := by
    intro id middle ancestor first second
    rw [ranked.inherits_iff] at first second ⊢
    exact first.trans second
  antisymmetric := ranked.inherits_antisymm table

-- The name is taken, or an ancestor is not there.
def Refuses (table : ClassTable) (draft : ClassDraft) : Prop :=
  (∃ id, table.find? draft.name = some id) ∨ ∃ ancestor ∈ draft.ancestors, table.get? ancestor = none

theorem define_refused (refused : table.Refuses draft) : ∃ cause, table.define draft = .error cause := by
  cases done : table.define draft with
  | error cause => exact ⟨cause, rfl⟩
  | ok made =>
    obtain ⟨fresh, known, -⟩ := table.define_done made.2 draft made.1 done
    rcases refused with ⟨id, taken⟩ | ⟨ancestor, listed, unknown⟩
    · simp [taken] at fresh
    · exact absurd (known ancestor listed) ((table.unknown_bound ancestor).mp unknown).not_gt

end ClassTable

namespace Engine
variable (machine : Machine) (draft : ClassDraft)

theorem define_class_failed (failure : Failure) (after : Machine) (failed : defineClass draft machine = .failed failure after) :
    after = machine ∧ machine.classes.Refuses draft := by
  unfold defineClass at failed
  cases done : machine.classes.define draft with
  | ok made =>
    rw [done] at failed
    cases failed
  | error cause =>
    rw [done] at failed
    cases failed
    exact ⟨rfl, machine.classes.define_failed draft cause done⟩

theorem define_class_refused (refused : machine.classes.Refuses draft) :
    ∃ failure, defineClass draft machine = .failed failure machine := by
  obtain ⟨cause, failed⟩ := machine.classes.define_refused draft refused
  exact ⟨.of cause, by rw [defineClass, failed]⟩

end Engine

namespace ClassTable

/-- Every table that grows from the first one is a hierarchy, and a machine that holds it refuses a class with a name that is
taken or with an unknown ancestor, and no other, and stays as it was. -/
theorem grown_hierarchy (drafts : List ClassDraft) (table : ClassTable) (grows : Grows intrinsic drafts table) :
    table.Hierarchy ∧ ∀ (machine : Machine) (draft : ClassDraft), machine.classes = table →
      (∀ failure after, Engine.defineClass draft machine = .failed failure after → after = machine) ∧
        ((∃ failure, Engine.defineClass draft machine = .failed failure machine) ↔ table.Refuses draft) := by
  refine ⟨(grows.ranked intrinsic table intrinsic_ranked).hierarchy table, ?_⟩
  rintro machine draft rfl
  refine ⟨fun failure after failed => (Engine.define_class_failed machine draft failure after failed).1, ?_, ?_⟩
  · rintro ⟨failure, failed⟩
    exact (Engine.define_class_failed machine draft failure machine failed).2
  · exact Engine.define_class_refused machine draft

def bare (name : String) (ancestors : List ClassId) : ClassDraft := ⟨name, .user, ancestors, .empty, .empty⟩

def diamond : List ClassDraft :=
  [bare "both" [⟨9⟩, ⟨10⟩, ⟨9⟩], bare "right" [.object, ⟨8⟩], bare "left" [⟨8⟩], bare "base" [.function]]

def diamondTable : ClassTable := diamond.foldr (fun draft table => table.add draft) intrinsic

theorem grows_diamond : Grows intrinsic diamond diamondTable := by
  have base := Grows.defined [] _ _ _ _ .start (define_succeeds intrinsic (bare "base" [.function]) (by decide +kernel)
    (by decide +kernel))
  have left := Grows.defined _ _ _ _ _ base (define_succeeds _ (bare "left" [⟨8⟩]) (by decide +kernel) (by decide +kernel))
  obtain ⟨_, taken⟩ := define_refused ((intrinsic.add (bare "base" [.function])).add (bare "left" [⟨8⟩])) (bare "left" [])
    (.inl ⟨⟨9⟩, by decide +kernel⟩)
  have right := Grows.defined _ _ _ _ _ (.refused _ _ _ _ left taken)
    (define_succeeds _ (bare "right" [.object, ⟨8⟩]) (by decide +kernel) (by decide +kernel))
  exact .defined _ _ _ _ _ right (define_succeeds _ (bare "both" [⟨9⟩, ⟨10⟩, ⟨9⟩]) (by decide +kernel) (by decide +kernel))

theorem diamond_hierarchy : Grows intrinsic diamond diamondTable ∧ diamondTable.Hierarchy ∧
    diamondTable.inherits ⟨11⟩ .object = true :=
  have hierarchy := (grown_hierarchy diamond diamondTable grows_diamond).1
  ⟨grows_diamond, hierarchy, by decide +kernel⟩

end ClassTable
end CoopScript
