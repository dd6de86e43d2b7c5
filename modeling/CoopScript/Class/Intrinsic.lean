import CoopScript.Class.Table

/-!
The classes that every table starts with. Members are functions, and functions have a class with
members; so the function class comes first with nothing but its call hook, and it and the object class
are then built anew twice, each time with functions that know more members than the ones before.
-/
set_option autoImplicit false
namespace CoopScript.ClassTable

def method (table : ClassTable) (identity : Nat) (name : String) (code : Builtin) :
    String × Value :=
  (name, table.builtin identity name .variadic code)

def bareFunction : ClassDraft :=
  ⟨"function", .function, [], .empty, .ofList [(callHook, .hook .standard)]⟩

def objectDraft (table : ClassTable) (identity : Nat) : ClassDraft :=
  { name := "object"
    kind := .object
    ancestors := []
    members := .ofList
      [table.method identity "__str__" .objectText,
       table.method (identity + 1) "__bool__" .objectTruth]
    hidden := .empty }

def functionDraft (table : ClassTable) (identity : Nat) : ClassDraft :=
  { bareFunction with
    ancestors := [.object]
    members := .ofList [table.method identity "__str__" .functionText] }

def deepen (table : ClassTable) (identity : Nat) : ClassTable :=
  let table := table.rebuild .function (table.functionDraft identity)
  table.rebuild .object (table.objectDraft (identity + 1))

def addIntrinsic (table : ClassTable) (name : String) (kind : ClassKind) (identity : Nat)
    (methods : List (String × Builtin)) : ClassTable :=
  let members := methods.zipIdx.map fun ((method, code), place) =>
    table.method (identity + place) method code
  table.add ⟨name, kind, [.object], .ofList members, .empty⟩

def foundation : ClassTable :=
  let table := empty.add bareFunction
  let table := table.add (table.objectDraft 0)
  (table.deepen 2).deepen 5

def intrinsic : ClassTable :=
  foundation
    |>.addIntrinsic "void" .void 8 [("__str__", .voidText), ("__bool__", .voidTruth)]
    |>.addIntrinsic "number" .number 10 [("__str__", .numberText)]
    |>.addIntrinsic "string" .string 11 [("__str__", .stringText), ("len", .stringLength)]
    |>.addIntrinsic "boolean" .boolean 13 [("__str__", .booleanText), ("__bool__", .booleanTruth)]
    |>.addIntrinsic "array" .array 15
        [("__str__", .arrayText), ("__bool__", .arrayTruth), ("len", .arrayLength)]
    |>.addIntrinsic "promise" .promise 18 [("__str__", .promiseText)]

def firstIdentity : Nat := 19

end CoopScript.ClassTable
