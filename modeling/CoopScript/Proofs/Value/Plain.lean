import CoopScript.Class.Intrinsic
import CoopScript.Frame.Arena

set_option autoImplicit false
namespace CoopScript

def NameMap.All {α : Type} (holds : α → Prop) (map : NameMap α) : Prop :=
  ∀ entry ∈ map.entries, holds entry.2

def Member.Ordinary (member : Member Value) : Prop := ∀ code, member ≠ .hook (.behaviour code)

def Function.Ordinary (function : Function Value) : Prop :=
  ∀ code, function.body = .native code → ∃ builtin, code = .builtin builtin

inductive Value.Plain : Value → Prop where
  | intro (value : Value) (members : ∀ entry ∈ value.members.entries, Plain entry.2)
      (hidden : value.hidden.All Member.Ordinary)
      (items : ∀ identity items, value.data = .array identity items → ∀ item ∈ items, Plain item)
      (function : ∀ identity function, value.data = .function identity function → function.Ordinary) :
      Plain value

def Data.Plain (data : Data Value) : Prop :=
  (∀ identity items, data = .array identity items → ∀ item ∈ items, item.Plain) ∧
    ∀ identity function, data = .function identity function → function.Ordinary

structure ClassTable.Plain (table : ClassTable) : Prop where
  members : ∀ info ∈ table.classes, info.members.All Value.Plain
  hidden : ∀ info ∈ table.classes, info.hidden.All Member.Ordinary

structure Frame.Plain (frame : Frame) : Prop where
  bindings : frame.bindings.All Value.Plain
  returned : ∀ value, frame.returned = some value → value.Plain

def Arena.Plain (arena : Arena) : Prop := ∀ id frame, arena.frame? id = some frame → frame.Plain

namespace NameMap
variable {α : Type}

theorem all_empty (holds : α → Prop) : (empty : NameMap α).All holds := by
  intro entry member
  cases member

theorem find_listed (map : NameMap α) (name : String) (value : α) (found : map.find? name = some value) :
    (name, value) ∈ map.entries := by
  obtain ⟨entries⟩ := map
  simp only [find?] at found
  induction entries with
  | nil => cases found
  | cons entry rest ih =>
    obtain ⟨known, old⟩ := entry
    rw [lookup] at found
    by_cases here : known = name
    · rw [if_pos here] at found
      cases found
      exact here ▸ List.mem_cons_self
    · rw [if_neg here] at found
      exact List.mem_cons_of_mem _ (ih found)

theorem all_found (holds : α → Prop) (map : NameMap α) (all : map.All holds) (name : String) (value : α)
    (found : map.find? name = some value) : holds value := all (name, value) (map.find_listed name value found)

theorem all_insert (holds : α → Prop) (map : NameMap α) (all : map.All holds) (name : String) (value : α)
    (new : holds value) : (map.insert name value).All holds := by
  obtain ⟨entries⟩ := map
  induction entries with
  | nil =>
    intro entry member
    obtain rfl : entry = (name, value) := by simpa [insert, place] using member
    exact new
  | cons first rest ih =>
    obtain ⟨known, old⟩ := first
    have tail := ih fun entry member => all entry (List.mem_cons_of_mem _ member)
    intro entry member
    simp only [insert, place] at member
    split at member
    next =>
      rcases List.mem_cons.mp member with rfl | later
      · exact new
      · exact all entry (List.mem_cons_of_mem _ later)
    next =>
      rcases List.mem_cons.mp member with rfl | later
      · exact all (known, old) (by simp)
      · exact tail entry later

theorem all_extend (holds : α → Prop) (map later : NameMap α) (all : map.All holds)
    (laterAll : later.All holds) : (map.extend later).All holds := by
  obtain ⟨entries⟩ := later
  unfold extend
  induction entries generalizing map with
  | nil => exact all
  | cons entry rest ih =>
    simp only [List.foldl_cons]
    apply ih
    · exact all_insert holds map all entry.1 entry.2 (laterAll entry (by simp))
    · exact fun entry member => laterAll entry (List.mem_cons_of_mem _ member)

theorem all_listed (holds : α → Prop) (entries : List (String × α))
    (each : ∀ entry ∈ entries, holds entry.2) : (ofList entries).All holds :=
  all_extend holds empty ⟨entries⟩ (all_empty holds) each

theorem all_gathered {β : Type} (holds : α → Prop) (pick : β → NameMap α) (sources : List β)
    (map : NameMap α) (all : map.All holds) (each : ∀ source ∈ sources, (pick source).All holds) :
    (sources.foldl (fun merged source => merged.extend (pick source)) map).All holds := by
  induction sources generalizing map with
  | nil => exact all
  | cons source rest ih =>
    exact ih _ (all_extend holds map (pick source) all (each source (by simp)))
      fun later member => each later (List.mem_cons_of_mem _ member)

end NameMap

namespace Value

theorem plain_member (value : Value) (plain : value.Plain) (name : String) (member : Value)
    (found : value.member? name = some member) : member.Plain := by
  cases plain with
  | intro _ members => exact NameMap.all_found Plain value.members members name member found

theorem plain_hook (value : Value) (plain : value.Plain) (name : String) (code : Behaviour Value) :
    value.hidden? name ≠ some (.hook (.behaviour code)) := by
  cases plain with
  | intro _ _ hidden =>
    exact fun found => NameMap.all_found Member.Ordinary value.hidden hidden name _ found code rfl

theorem plain_data (value : Value) (plain : value.Plain) : value.data.Plain := by
  cases plain with
  | intro _ _ _ items function => exact ⟨items, function⟩

theorem plain_function (value : Value) (plain : value.Plain) (function : Function Value)
    (found : value.function? = some function) : function.Ordinary := by
  unfold function? at found
  split at found
  next identity content shape =>
    cases found
    exact (plain_data value plain).2 identity function shape
  next => cases found

theorem plain_items (value : Value) (plain : value.Plain) (items : List Value)
    (found : value.items? = some items) : ∀ item ∈ items, item.Plain := by
  unfold items? at found
  split at found
  next identity content shape =>
    cases found
    exact (plain_data value plain).1 identity items shape
  next => cases found

end Value

namespace ClassTable

theorem plain_instantiate (table : ClassTable) (plain : table.Plain) (id : ClassId) (data : Data Value)
    (dataPlain : data.Plain) : (table.instantiate id data).Plain := by
  unfold instantiate
  cases found : table.get? id with
  | none =>
    exact .intro _ (NameMap.all_empty Value.Plain) (NameMap.all_empty Member.Ordinary) dataPlain.1
      dataPlain.2
  | some info =>
    have member : info ∈ table.classes := Array.mem_of_getElem? found
    exact .intro _ (plain.members info member) (plain.hidden info member) dataPlain.1 dataPlain.2

theorem plain_void (table : ClassTable) (plain : table.Plain) : table.void.Plain := by
  apply plain_instantiate table plain
  constructor <;> simp

theorem plain_number (table : ClassTable) (plain : table.Plain) (x : Float) :
    (table.number x).Plain := by
  apply plain_instantiate table plain
  constructor <;> simp

theorem plain_text (table : ClassTable) (plain : table.Plain) (text : String) :
    (table.text text).Plain := by
  apply plain_instantiate table plain
  constructor <;> simp

theorem plain_flag (table : ClassTable) (plain : table.Plain) (flag : Bool) :
    (table.flag flag).Plain := by
  apply plain_instantiate table plain
  constructor <;> simp

theorem plain_promise (table : ClassTable) (plain : table.Plain) (task : TaskId) :
    (table.promise task).Plain := by
  apply plain_instantiate table plain
  constructor <;> simp

theorem plain_array (table : ClassTable) (plain : table.Plain) (identity : Nat) (items : List Value)
    (itemsPlain : ∀ item ∈ items, item.Plain) : (table.array identity items).Plain := by
  apply plain_instantiate table plain
  constructor
  · intro _ _ same
    cases same
    exact itemsPlain
  · simp

theorem plain_function (table : ClassTable) (plain : table.Plain) (identity : Nat)
    (function : Function Value) (ordinary : function.Ordinary) :
    (table.function identity function).Plain := by
  apply plain_instantiate table plain
  constructor
  · simp
  · intro _ _ same
    cases same
    exact ordinary

theorem plain_builtin (table : ClassTable) (plain : table.Plain) (identity : Nat) (name : String)
    (parameters : Parameters) (code : Builtin) : (table.builtin identity name parameters code).Plain := by
  apply plain_function table plain
  intro native same
  cases same
  exact ⟨code, rfl⟩

theorem plain_scalar (table : ClassTable) (plain : table.Plain) (scalar : Scalar) :
    (table.scalar scalar).Plain := by
  cases scalar with
  | void => exact plain_void table plain
  | number x => exact plain_number table plain x
  | text text => exact plain_text table plain text
  | flag flag => exact plain_flag table plain flag

theorem all_merge {α : Type} (holds : α → Prop) (table : ClassTable) (pick : ClassInfo → NameMap α)
    (ancestors : List ClassId) (own : NameMap α)
    (inherited : ∀ info ∈ table.classes, (pick info).All holds) (ownAll : own.All holds) :
    (table.merge pick ancestors own).All holds := by
  unfold merge
  refine NameMap.all_extend holds _ own ?_ ownAll
  have known : ∀ info ∈ ancestors.filterMap table.get?, (pick info).All holds := by
    intro info member
    obtain ⟨id, _, found⟩ := List.mem_filterMap.mp member
    exact inherited info (Array.mem_of_getElem? found)
  exact NameMap.all_gathered holds pick _ .empty (NameMap.all_empty holds) known

theorem plain_empty : empty.Plain := by
  constructor <;> simp [empty]

-- A class declared with plain members fits into a plain table.
structure Fits (draft : ClassDraft) : Prop where
  members : draft.members.All Value.Plain
  hidden : draft.hidden.All Member.Ordinary

theorem plain_complete (table : ClassTable) (plain : table.Plain) (draft : ClassDraft)
    (fits : Fits draft) : (table.complete draft).members.All Value.Plain ∧
      (table.complete draft).hidden.All Member.Ordinary :=
  ⟨all_merge Value.Plain table ClassInfo.members draft.ancestors draft.members plain.members fits.members,
    all_merge Member.Ordinary table ClassInfo.hidden draft.ancestors draft.hidden plain.hidden fits.hidden⟩

theorem plain_add (table : ClassTable) (plain : table.Plain) (draft : ClassDraft) (fits : Fits draft) :
    (table.add draft).Plain := by
  have complete := plain_complete table plain draft fits
  constructor
  · intro info member
    rcases Array.mem_push.mp member with known | rfl
    · exact plain.members info known
    · exact complete.1
  · intro info member
    rcases Array.mem_push.mp member with known | rfl
    · exact plain.hidden info known
    · exact complete.2

theorem plain_rebuild (table : ClassTable) (plain : table.Plain) (id : ClassId) (draft : ClassDraft)
    (fits : Fits draft) : (table.rebuild id draft).Plain := by
  have complete := plain_complete table plain draft fits
  constructor
  · intro info member
    rcases Array.mem_or_eq_of_mem_setIfInBounds member with known | rfl
    · exact plain.members info known
    · exact complete.1
  · intro info member
    rcases Array.mem_or_eq_of_mem_setIfInBounds member with known | rfl
    · exact plain.hidden info known
    · exact complete.2

theorem fits_methods (table : ClassTable) (plain : table.Plain) (draft : ClassDraft)
    (methods : List (String × Value)) (members : draft.members = .ofList methods)
    (built : ∀ entry ∈ methods, ∃ identity name code, entry = table.method identity name code)
    (hidden : draft.hidden.All Member.Ordinary) : Fits draft := by
  refine ⟨?_, hidden⟩
  rw [members]
  apply NameMap.all_listed
  intro entry member
  obtain ⟨identity, name, code, rfl⟩ := built entry member
  exact plain_builtin table plain identity name .variadic code

theorem ordinary_bare : bareFunction.hidden.All Member.Ordinary := by
  apply NameMap.all_listed
  intro entry member code same
  obtain rfl : entry = (callHook, .hook .standard) := by simpa using member
  cases same

theorem fits_object (table : ClassTable) (plain : table.Plain) (identity : Nat) :
    Fits (table.objectDraft identity) := by
  refine fits_methods table plain _ _ rfl ?_ (NameMap.all_empty Member.Ordinary)
  intro entry member
  rcases List.mem_cons.mp member with rfl | member
  · exact ⟨_, _, _, rfl⟩
  · obtain rfl := List.mem_singleton.mp member
    exact ⟨_, _, _, rfl⟩

theorem fits_function (table : ClassTable) (plain : table.Plain) (identity : Nat) :
    Fits (table.functionDraft identity) := by
  refine fits_methods table plain _ _ rfl ?_ ordinary_bare
  intro entry member
  obtain rfl := List.mem_singleton.mp member
  exact ⟨_, _, _, rfl⟩

theorem plain_deepen (table : ClassTable) (plain : table.Plain) (identity : Nat) :
    (table.deepen identity).Plain := by
  have rebuilt := plain_rebuild table plain .function _ (fits_function table plain identity)
  exact plain_rebuild _ rebuilt .object _ (fits_object _ rebuilt (identity + 1))

theorem plain_intrinsic_class (table : ClassTable) (plain : table.Plain) (name : String)
    (kind : ClassKind) (identity : Nat) (methods : List (String × Builtin)) :
    (table.addIntrinsic name kind identity methods).Plain := by
  apply plain_add table plain
  refine fits_methods table plain _ _ rfl ?_ (NameMap.all_empty Member.Ordinary)
  intro entry member
  obtain ⟨source, _, rfl⟩ := List.mem_map.mp member
  exact ⟨_, _, _, rfl⟩

theorem plain_intrinsic : intrinsic.Plain := by
  have bare := plain_add empty plain_empty bareFunction ⟨NameMap.all_empty Value.Plain, ordinary_bare⟩
  have object := plain_add _ bare _ (fits_object _ bare 0)
  have foundation : foundation.Plain := plain_deepen _ (plain_deepen _ object 2) 5
  unfold intrinsic
  iterate 6 apply plain_intrinsic_class
  exact foundation

end ClassTable
end CoopScript
