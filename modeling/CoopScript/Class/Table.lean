import CoopScript.Value.Basic

set_option autoImplicit false
namespace CoopScript

structure ClassInfo where
  name : String
  kind : ClassKind
  ancestors : List ClassId
  members : NameMap Value
  hidden : NameMap (Member Value)

structure ClassDraft where
  name : String
  kind : ClassKind
  ancestors : List ClassId
  members : NameMap Value
  hidden : NameMap (Member Value)

structure ClassTable where
  classes : Array ClassInfo
  byName : NameMap ClassId

namespace ClassId

def function : ClassId := ⟨0⟩
def object : ClassId := ⟨1⟩
def void : ClassId := ⟨2⟩
def number : ClassId := ⟨3⟩
def string : ClassId := ⟨4⟩
def boolean : ClassId := ⟨5⟩
def array : ClassId := ⟨6⟩
def promise : ClassId := ⟨7⟩

end ClassId

def callHook : String := "__call__"

namespace ClassTable

def empty : ClassTable := ⟨#[], .empty⟩

def get? (table : ClassTable) (id : ClassId) : Option ClassInfo := table.classes[id.index]?

def find? (table : ClassTable) (name : String) : Option ClassId := table.byName.find? name

def nameOf (table : ClassTable) (value : Value) : String :=
  match table.get? value.classId with
  | some info => info.name
  | none => ""

def merge {α : Type} (table : ClassTable) (pick : ClassInfo → NameMap α) (ancestors : List ClassId)
    (own : NameMap α) : NameMap α :=
  let inherited := (ancestors.filterMap table.get?).foldl
    (fun merged info => merged.extend (pick info)) NameMap.empty
  inherited.extend own

def complete (table : ClassTable) (draft : ClassDraft) : ClassInfo :=
  { name := draft.name
    kind := draft.kind
    ancestors := draft.ancestors
    members := table.merge ClassInfo.members draft.ancestors draft.members
    hidden := table.merge ClassInfo.hidden draft.ancestors draft.hidden }

def add (table : ClassTable) (draft : ClassDraft) : ClassTable :=
  ⟨table.classes.push (table.complete draft), table.byName.insert draft.name ⟨table.classes.size⟩⟩

-- Rebuilds a class in place; values made before keep the members they have.
def rebuild (table : ClassTable) (id : ClassId) (draft : ClassDraft) : ClassTable :=
  { table with classes := table.classes.setIfInBounds id.index (table.complete draft) }

def define (table : ClassTable) (draft : ClassDraft) : Except Cause (ClassId × ClassTable) :=
  match table.find? draft.name with
  | some _ => .error (.classTaken draft.name)
  | none =>
    match draft.ancestors.find? fun ancestor => table.classes.size ≤ ancestor.index with
    | some missing => .error (.unknownAncestor draft.name missing.index)
    | none => .ok (⟨table.classes.size⟩, table.add draft)

def inheritsWithin (table : ClassTable) : Nat → ClassId → ClassId → Bool
  | 0, _, _ => false
  | fuel + 1, id, ancestor =>
    id = ancestor ||
      match table.get? id with
      | some info => info.ancestors.any fun parent => table.inheritsWithin fuel parent ancestor
      | none => false

-- Whether a class is `ancestor` or descends from it; no line of descent visits a class twice.
def inherits (table : ClassTable) (id ancestor : ClassId) : Bool :=
  table.inheritsWithin table.classes.size id ancestor

def isFunction (table : ClassTable) (value : Value) : Bool :=
  table.inherits value.classId .function

def instantiate (table : ClassTable) (id : ClassId) (data : Data Value) : Value :=
  match table.get? id with
  | some info => ⟨id, info.members, info.hidden, data⟩
  | none => ⟨id, .empty, .empty, data⟩

def void (table : ClassTable) : Value := table.instantiate .void .void

def number (table : ClassTable) (x : Float) : Value := table.instantiate .number (.number x)

def text (table : ClassTable) (text : String) : Value := table.instantiate .string (.text text)

def flag (table : ClassTable) (flag : Bool) : Value := table.instantiate .boolean (.flag flag)

def array (table : ClassTable) (identity : Nat) (items : List Value) : Value :=
  table.instantiate .array (.array identity items)

def promise (table : ClassTable) (task : TaskId) : Value :=
  table.instantiate .promise (.promise task)

def function (table : ClassTable) (identity : Nat) (function : Function Value) : Value :=
  table.instantiate .function (.function identity function)

def builtin (table : ClassTable) (identity : Nat) (name : String) (parameters : Parameters)
    (code : Builtin) : Value :=
  table.function identity ⟨name, parameters, .native (.builtin code), false⟩

def scalar (table : ClassTable) : Scalar → Value
  | .void => table.void
  | .number x => table.number x
  | .text text => table.text text
  | .flag flag => table.flag flag

end ClassTable
end CoopScript
