set_option autoImplicit false
namespace CoopScript

structure NameMap (α : Type) where
  entries : List (String × α)

namespace NameMap
variable {α : Type}

def empty : NameMap α := ⟨[]⟩

instance : Inhabited (NameMap α) := ⟨empty⟩

def lookup (name : String) : List (String × α) → Option α
  | [] => none
  | (known, value) :: rest => if known = name then some value else lookup name rest

def place (name : String) (value : α) : List (String × α) → List (String × α)
  | [] => [(name, value)]
  | (known, old) :: rest =>
    if known = name then (known, value) :: rest else (known, old) :: place name value rest

def find? (map : NameMap α) (name : String) : Option α := lookup name map.entries

def contains (map : NameMap α) (name : String) : Bool := (map.find? name).isSome

def insert (map : NameMap α) (name : String) (value : α) : NameMap α :=
  ⟨place name value map.entries⟩

def extend (map later : NameMap α) : NameMap α :=
  later.entries.foldl (fun merged (name, value) => merged.insert name value) map

def ofList (entries : List (String × α)) : NameMap α := empty.extend ⟨entries⟩

def names (map : NameMap α) : List String := map.entries.map Prod.fst

def values (map : NameMap α) : List α := map.entries.map Prod.snd

@[simp] theorem find?_empty (name : String) : (empty : NameMap α).find? name = none := rfl

theorem lookup_place (entries : List (String × α)) (name other : String) (value : α) :
    lookup other (place name value entries) =
      if other = name then some value else lookup other entries := by
  induction entries with
  | nil => simp [place, lookup, eq_comm]
  | cons entry rest ih =>
    obtain ⟨known, old⟩ := entry
    by_cases known_is_name : known = name
    · by_cases known_is_other : known = other
      · subst known_is_name; subst known_is_other; simp [place, lookup]
      · have other_ne : other ≠ name := fun same => known_is_other (known_is_name.trans same.symm)
        simp [place, lookup, known_is_name, other_ne, Ne.symm other_ne]
    · by_cases known_is_other : known = other
      · subst known_is_other; simp [place, lookup, known_is_name]
      · simp [place, lookup, known_is_name, known_is_other, ih]

theorem find?_insert (map : NameMap α) (name other : String) (value : α) :
    (map.insert name value).find? other = if other = name then some value else map.find? other :=
  lookup_place map.entries name other value

end NameMap
end CoopScript
