import CoopScript.Interpreter
import CoopScript.Proofs.Exit.Tame
import CoopScript.Proofs.Coherent.Request

set_option autoImplicit false
namespace CoopScript

namespace NameMap

-- A function that bears the name it is listed under, with such members.
def isNative (members : NameMap Value → Bool) (entry : String × Value) : Bool :=
  decide (entry.2.classId = .function) && decide (entry.2.function?.map Function.name = some entry.1) && members entry.2.members

-- Members that go so deep: a text and a truth, and nothing but functions whose members go one less deep.
def layered : Nat → NameMap Value → Bool
  | 0, members => members.entries.isEmpty
  | depth + 1, members =>
    decide ((members.find? "__str__").bind Value.builtin? = some .functionText) &&
      decide ((members.find? "__bool__").bind Value.builtin? = some .objectTruth) &&
      members.entries.all (isNative (layered depth))

end NameMap

theorem ClassTable.data_instantiate (table : ClassTable) (id : ClassId) (data : Data Value) :
    (table.instantiate id data).data = data := by
  unfold instantiate
  cases table.get? id <;> rfl

namespace Value

-- What accesses to one member after the other lead to.
def follow (value : Value) : List String → Option Value
  | [] => some value
  | name :: rest => (value.member? name).bind fun member => member.follow rest

theorem follow_append (value : Value) (front back : List String) :
    value.follow (front ++ back) = (value.follow front).bind fun middle => middle.follow back := by
  induction front generalizing value with
  | nil => rfl
  | cons name rest ih =>
    rw [List.cons_append, follow, follow]
    cases value.member? name with
    | none => rfl
    | some member => exact ih member

-- A function whose members go so deep.
structure Deep (depth : Nat) (value : Value) : Prop where
  function : value.classId = .function
  content : ∃ content, value.function? = some content
  members : value.members.layered depth = true

/-- Of a function with members one can ask the text and the truth, and its text tells its name. -/
structure Full (value : Value) (name : String) : Prop where
  text : ∃ method, value.member? "__str__" = some method ∧ method.classId = .function
  truth : ∃ method, value.member? "__bool__" = some method ∧ method.classId = .function
  shown : ∀ fuel frame machine,
    (RuleSet.standard.engine (fuel + 1)).stringify value frame machine = .done ("<fn " ++ name ++ ">") machine

-- A function without members shows the name of its class.
structure Hollow (value : Value) : Prop where
  member : ∀ name, value.member? name = none
  shown : ∀ fuel frame machine, machine.classes = .intrinsic →
    (RuleSet.standard.engine fuel).stringify value frame machine = .done "<function>" machine

variable {value : Value} {depth : Nat}

theorem listed_deep (members : NameMap Value) (layers : members.entries.all (NameMap.isNative (NameMap.layered depth)) = true)
    (name : String) (member : Value) (found : members.find? name = some member) :
    member.Deep depth ∧ member.function?.map Function.name = some name := by
  have native := List.all_eq_true.mp layers _ (members.find_listed name member found)
  simp only [NameMap.isNative, Bool.and_eq_true, decide_eq_true_eq] at native
  obtain ⟨⟨function, named⟩, layers⟩ := native
  obtain ⟨content, known, -⟩ := Option.map_eq_some_iff.mp named
  exact ⟨⟨function, ⟨content, known⟩, layers⟩, named⟩

-- The end of a chain bears the name that was asked for last.
theorem named_last (first : String) (rest : List String) (middle result : Value) (onward : middle.follow rest = some result)
    (named : middle.function?.map Function.name = some first)
    (last : ∀ name, rest.getLast? = some name → result.function?.map Function.name = some name) :
    ∀ name, (first :: rest).getLast? = some name → result.function?.map Function.name = some name := by
  intro name asked
  cases rest with
  | nil =>
    cases onward
    cases asked
    exact named
  | cons second rest => exact last name asked

theorem function_text_told (text value : Value) (content : Function Value) (code : text.builtin? = some .functionText)
    (known : value.function? = some content) (fuel : Nat) (frame : FrameId) (machine : Machine) :
    (RuleSet.standard.engine (fuel + 1)).invoke value text .empty frame machine =
      .done (machine.classes.text ("<fn " ++ content.name ++ ">")) machine := by
  have runs := text.builtin_runs _ code
  obtain ⟨own, method, body⟩ := runs.function
  rw [Engine.invoke, runs.hook]
  simp only [Engine.callFunction, method, body]
  change (RuleSet.standard.engine fuel).runBuiltin .functionText ⟨value, text, .empty, frame⟩ machine = _
  simp only [Engine.runBuiltin, known]
  rfl

namespace Deep

theorem named (deep : value.Deep depth) : ClassTable.intrinsic.nameOf value = "function" := by
  have name : (ClassTable.intrinsic.get? .function).map ClassInfo.name = some "function" := by decide +kernel
  obtain ⟨info, known, same⟩ := Option.map_eq_some_iff.mp name
  rw [ClassTable.nameOf, deep.function, known]
  exact same

theorem hollow (deep : value.Deep 0) : value.Hollow where
  member := by
    intro name
    have none_there : value.members.entries = [] := List.isEmpty_iff.mp deep.members
    rw [member?, NameMap.find?, none_there, NameMap.lookup]
  shown := by
    intro fuel frame machine classes
    have none_there : value.members.entries = [] := List.isEmpty_iff.mp deep.members
    have silent : value.member? "__str__" = none := by rw [member?, NameMap.find?, none_there, NameMap.lookup]
    rw [Engine.stringify, silent]
    simp only [Exec.nameOf, Exec.read, bind, Exec.bind, pure, Exec.pure, classes, deep.named]
    rfl

theorem member (deep : value.Deep (depth + 1)) (name : String) (member : Value) (found : value.member? name = some member) :
    member.Deep depth ∧ member.function?.map Function.name = some name := by
  have layers := deep.members
  simp only [NameMap.layered, Bool.and_eq_true] at layers
  exact listed_deep value.members layers.2 name member found

theorem full (deep : value.Deep (depth + 1)) (content : Function Value) (known : value.function? = some content) :
    value.Full content.name := by
  have layers := deep.members
  simp only [NameMap.layered, Bool.and_eq_true, decide_eq_true_eq] at layers
  obtain ⟨text, found, code⟩ := Option.bind_eq_some_iff.mp layers.1.1
  obtain ⟨truth, foundTruth, -⟩ := Option.bind_eq_some_iff.mp layers.1.2
  have foundText : value.member? "__str__" = some text := found
  have isText := (deep.member "__str__" text found).1
  have isTruth := (deep.member "__bool__" truth foundTruth).1
  refine ⟨⟨text, found, isText.function⟩, ⟨truth, foundTruth, isTruth.function⟩, fun fuel frame machine => ?_⟩
  -- whatever the classes of the machine are, a text made in it is that text
  have tells : (machine.classes.text ("<fn " ++ content.name ++ ">")).text? = some ("<fn " ++ content.name ++ ">") := by
    rw [ClassTable.text, text?, ClassTable.data_instantiate]
  rw [Engine.stringify, foundText]
  simp only [bind, Exec.bind, text.function_text_told value content code known, tells]
  rfl

-- Every access leads one deeper, to a function of the name that was asked for.
theorem follow (deep : value.Deep depth) (path : List String) (result : Value) (reached : value.follow path = some result) :
    ∃ left, result.Deep left ∧ left + path.length = depth ∧
      ∀ name, path.getLast? = some name → result.function?.map Function.name = some name := by
  -- on the path, for all values and depths, as each access goes on from another value
  induction path generalizing value depth with
  | nil =>
    cases reached
    exact ⟨depth, deep, rfl, fun _ none => by cases none⟩
  | cons first rest ih =>
    obtain ⟨middle, found, onward⟩ := Option.bind_eq_some_iff.mp reached
    cases depth with
    | zero => exact absurd (found.symm.trans (deep.hollow.member first)) (by simp)
    | succ depth =>
      obtain ⟨middleDeep, named⟩ := deep.member first middle found
      obtain ⟨left, resultDeep, depths, last⟩ := ih middleDeep onward
      exact ⟨left, resultDeep, congrArg (· + 1) depths, named_last first rest middle result onward named last⟩

end Deep

-- A value that has just been made of one of the first classes. What is made of the function class is a function.
def Fresh (value : Value) : Prop :=
  ∃ id data, value = ClassTable.intrinsic.instantiate id data ∧
    (id = .function → ∃ identity content, data = .function identity content)

-- How many accesses, one after the other, lead from a fresh value to functions that have members.
def layers (value : Value) : Nat := if value.classId = .function then 1 else 2

end Value

namespace ClassTable

theorem class_instantiate (table : ClassTable) (id : ClassId) (data : Data Value) :
    (table.instantiate id data).classId = id := by
  unfold instantiate
  cases table.get? id <;> rfl

-- The function class has been built anew twice, and its functions are those of the stage before.
theorem function_layered : (intrinsic.get? .function).any (fun info => info.members.layered 2) = true := by decide +kernel

-- All the others have been completed with functions of the last stage.
theorem others_layered : intrinsic.classes.toList.tail.all
    (fun info => info.members.entries.all (NameMap.isNative (NameMap.layered 2))) = true := by decide +kernel

theorem function_deep (identity : Nat) (content : Function Value) :
    (intrinsic.instantiate .function (.function identity content)).Deep 2 := by
  obtain ⟨info, found, layers⟩ := (Option.any_eq_true _ _).mp function_layered
  refine ⟨class_instantiate _ _ _, ⟨content, ?_⟩, ?_⟩
  · rw [Value.function?, data_instantiate]
  · rw [instantiate, found]
    exact layers

theorem member_deep (id : ClassId) (other : id ≠ .function) (data : Data Value) (name : String) (member : Value)
    (found : (intrinsic.instantiate id data).member? name = some member) :
    member.Deep 2 ∧ member.function?.map Function.name = some name := by
  unfold instantiate at found
  cases known : intrinsic.get? id with
  | none =>
    rw [known] at found
    cases found
  | some info =>
    rw [known] at found
    obtain ⟨index⟩ := id
    cases index with
    | zero => exact absurd rfl other
    | succ index =>
      have listed : intrinsic.classes.toList.tail[index]? = some info := by
        rw [List.getElem?_tail, Array.getElem?_toList]
        exact known
      exact Value.listed_deep info.members (List.all_eq_true.mp others_layered info (List.mem_of_getElem? listed)) name member found

end ClassTable

namespace Value.Fresh
variable {origin : Value}

theorem member (fresh : origin.Fresh) (name : String) (member : Value) (found : origin.member? name = some member) :
    member.Deep origin.layers ∧ member.function?.map Function.name = some name := by
  obtain ⟨id, data, rfl, functional⟩ := fresh
  by_cases own : id = .function
  · obtain ⟨identity, content, rfl⟩ := functional own
    subst own
    rw [layers, if_pos (ClassTable.class_instantiate _ _ _)]
    exact (ClassTable.function_deep identity content).member name member found
  · rw [layers, if_neg (ClassTable.class_instantiate _ _ _ ▸ own)]
    exact ClassTable.member_deep id own data name member found

theorem follow (fresh : origin.Fresh) (path : List String) (result : Value) (reached : origin.follow path = some result)
    (accessed : path = [] → result.classId = .function) :
    ∃ left, result.Deep left ∧ left + path.length = origin.layers + 1 ∧
      ∀ name, path.getLast? = some name → result.function?.map Function.name = some name := by
  cases path with
  | nil =>
    cases reached
    have function := accessed rfl
    have one : origin.layers = 1 := if_pos function
    obtain ⟨id, data, rfl, functional⟩ := fresh
    obtain rfl : id = .function := (ClassTable.class_instantiate _ _ _).symm.trans function
    obtain ⟨identity, content, rfl⟩ := functional rfl
    exact ⟨2, ClassTable.function_deep identity content, by rw [one]; rfl, fun _ none => by cases none⟩
  | cons first rest =>
    obtain ⟨middle, found, onward⟩ := Option.bind_eq_some_iff.mp reached
    obtain ⟨deep, named⟩ := fresh.member first middle found
    obtain ⟨left, resultDeep, depths, last⟩ := deep.follow rest result onward
    exact ⟨left, resultDeep, congrArg (· + 1) depths, named_last first rest middle result onward named last⟩

theorem ending (fresh : origin.Fresh) (path : List String) (result : Value) (reached : origin.follow path = some result)
    (function : result.classId = .function) :
    ∃ content, result.function? = some content ∧ (∀ name, path.getLast? = some name → content.name = name) ∧
      path.length ≤ origin.layers + 1 ∧ (path.length ≤ origin.layers → result.Full content.name) ∧
      (origin.layers < path.length → result.Hollow) := by
  obtain ⟨left, deep, depths, last⟩ := fresh.follow path result reached fun _ => function
  obtain ⟨content, known⟩ := deep.content
  refine ⟨content, known, fun name asked => ?_, by omega, fun within => ?_, fun beyond => ?_⟩
  · have named := last name asked
    rw [known] at named
    exact Option.some.inj named
  · -- there is a layer left, with the members in it
    obtain ⟨less, rfl⟩ : ∃ less, left = less + 1 := Nat.exists_eq_add_one.mpr (by omega)
    exact deep.full content known
  · obtain rfl : left = 0 := by omega
    exact deep.hollow

end Value.Fresh

namespace Value

-- A value that accesses lead to from a fresh one. The items of an array are such values, too.
inductive Drawn : Value → Prop where
  | by_accesses (origin value : Value) (path : List String) (fresh : origin.Fresh)
      (items : ∀ identity items, origin.data = .array identity items → ∀ item ∈ items, Drawn item)
      (reached : origin.follow path = some value) : Drawn value

namespace Drawn
variable {value : Value}

theorem member (drawn : value.Drawn) (name : String) (member : Value) (found : value.member? name = some member) :
    member.Drawn := by
  obtain ⟨origin, _, path, fresh, items, reached⟩ := drawn
  refine .by_accesses origin member (path ++ [name]) fresh items ?_
  rw [follow_append, reached, Option.bind_some, follow, found]
  rfl

theorem items (drawn : value.Drawn) (identity : Nat) (items : List Value) (data : value.data = .array identity items) :
    ∀ item ∈ items, item.Drawn := by
  obtain ⟨origin, _, path, fresh, itemsDrawn, reached⟩ := drawn
  cases path with
  | nil =>
    cases reached
    exact itemsDrawn identity items data
  | cons first rest =>
    -- accesses lead to functions, and those are no arrays
    obtain ⟨_, deep, -, -⟩ := fresh.follow (first :: rest) value reached fun none => by cases none
    obtain ⟨content, known⟩ := deep.content
    rw [function?, data] at known
    cases known

theorem of_instance (id : ClassId) (data : Data Value)
    (functional : id = .function → ∃ identity content, data = .function identity content)
    (items : ∀ identity items, data = .array identity items → ∀ item ∈ items, item.Drawn) :
    (ClassTable.intrinsic.instantiate id data).Drawn := by
  refine .by_accesses _ _ [] ⟨id, data, rfl, functional⟩ (fun identity listed same => ?_) rfl
  rw [ClassTable.data_instantiate] at same
  exact items identity listed same

-- Neither a function nor an array.
theorem of_simple (id : ClassId) (data : Data Value) (other : id ≠ .function)
    (simple : ∀ identity items, data ≠ .array identity items) : (ClassTable.intrinsic.instantiate id data).Drawn :=
  .of_instance id data (fun same => absurd same other) fun identity items same => absurd same (simple identity items)

theorem of_scalar (scalar : Scalar) : (ClassTable.intrinsic.scalar scalar).Drawn := by
  cases scalar with
  | void => exact .of_simple .void .void (by decide) (by simp)
  | number x => exact .of_simple .number (.number x) (by decide) (by simp)
  | text text => exact .of_simple .string (.text text) (by decide) (by simp)
  | flag flag => exact .of_simple .boolean (.flag flag) (by decide) (by simp)

theorem of_array (identity : Nat) (items : List Value) (drawn : ∀ item ∈ items, item.Drawn) :
    (ClassTable.intrinsic.array identity items).Drawn :=
  .of_instance .array (.array identity items) (fun same => absurd same (by decide)) fun _ _ same => by cases same; exact drawn

theorem of_function (identity : Nat) (content : Function Value) : (ClassTable.intrinsic.function identity content).Drawn :=
  .of_instance .function (.function identity content) (fun _ => ⟨identity, content, rfl⟩) fun _ _ same => by cases same

theorem of_promise (task : TaskId) : (ClassTable.intrinsic.promise task).Drawn :=
  .of_simple .promise (.promise task) (by decide) (by simp)

end Drawn
end Value

def ValueLaw.drawn : ValueLaw where
  Holds extent value := value.Known extent ∧ value.Drawn
  plain holds := holds.1.plain
  more less holds := ⟨Value.known_more less holds.1, holds.2⟩
  member holds name member found := ⟨Value.known_member holds.1 name member found, holds.2.member name member found⟩
  items holds identity items data item listed :=
    ⟨Value.known_array holds.1 identity items data item listed, holds.2.items identity items data item listed⟩
  scalar begun scalar := ⟨ClassTable.known_scalar begun scalar, .of_scalar scalar⟩
  array begun identity items hold :=
    ⟨ClassTable.known_array begun identity items fun item listed => (hold item listed).1,
      .of_array identity items fun item listed => (hold item listed).2⟩
  function begun identity content given ordinary :=
    ⟨ClassTable.known_function begun identity content given ordinary, .of_function identity content⟩
  promise begun task positive within := ⟨ClassTable.known_promise begun task positive within, .of_promise task⟩

/-- Whatever value a program comes by, and whatever function accesses lead to from it, it comes from a fresh value, and these
accesses are the last on the way from there. It bears the name that was asked for. If the way is short, the function has a text,
which tells its name, and a truth; if it is longer by one access, it has no members at all, and no way is longer than that. -/
theorem functions_full_to_depth {config : Config} {hand : List Value} {machine : Machine} (underway : Underway config hand machine)
    (value : Value) (inHand : value ∈ hand) (names : List String) (result : Value) (reached : value.follow names = some result)
    (function : result.classId = .function) :
    ∃ (origin : Value) (path : List String) (content : Function Value),
      origin.Fresh ∧ origin.follow path = some result ∧ names <:+ path ∧
        result.function? = some content ∧ (∀ name, path.getLast? = some name → content.name = name) ∧
        path.length ≤ origin.layers + 1 ∧ (path.length ≤ origin.layers → result.Full content.name) ∧
        (origin.layers < path.length → result.Hollow) := by
  obtain ⟨origin, _, front, fresh, _, drawn⟩ := ((underway.abides .drawn).2 value inHand).2
  have whole : origin.follow (front ++ names) = some result := by rw [Value.follow_append, drawn]; exact reached
  obtain ⟨content, known, last, short, within, beyond⟩ := fresh.ending (front ++ names) result whole function
  exact ⟨origin, front ++ names, content, fresh, whole, List.suffix_append front names, known, last, short, within, beyond⟩

theorem Underway.first_script (config : Config) (script : Script) (fuel : Nat) (value : Value) (after : Machine)
    (ran : script.run fuel (Machine.start config) = .done value after) : Underway config [value] after := by
  refine .done [] [value] _ after .start (.run script fuel) (List.forall_mem_nil _) ?_
  exact Exec.bind_done (script.run fuel) (fun value => pure [value]) _ _ value ran

theorem own_text_full_to_depth : ∃ (value result : Value) (after : Machine),
    (Script.text "fn f() \x7b \x7d f").run 30 (Machine.start .standard) = .done value after ∧
      value.follow ["__str__", "__bool__"] = some result ∧ result.classId = .function ∧
      ∃ (origin : Value) (path : List String) (content : Function Value),
        origin.Fresh ∧ origin.follow path = some result ∧ ["__str__", "__bool__"] <:+ path ∧
          result.function? = some content ∧ (∀ name, path.getLast? = some name → content.name = name) ∧
          path.length ≤ origin.layers + 1 ∧ (path.length ≤ origin.layers → result.Full content.name) ∧
          (origin.layers < path.length → result.Hollow) := by
  obtain ⟨value, after, ran, tested⟩ := Outcome.gives_done
    ((Script.text "fn f() \x7b \x7d f").run 30 (Machine.start .standard))
    (fun value _ => (value.follow ["__str__", "__bool__"]).any fun result => result.classId = .function) (by decide +kernel)
  obtain ⟨result, reached, function⟩ := (Option.any_eq_true _ _).mp tested
  have kind : result.classId = .function := of_decide_eq_true function
  exact ⟨value, result, after, ran, reached, kind, functions_full_to_depth (.first_script .standard _ 30 value after ran) value
    (List.mem_singleton_self value) ["__str__", "__bool__"] result reached kind⟩

-- The text of a function's text can be had, and is a function, but has neither a text nor a truth itself, and what it
-- shows is the name of its class.
theorem text_of_text_hollow : ∃ (value : Value) (after shown : Machine),
    Underway .standard [value] after ∧
      (Script.text "fn f() \x7b \x7d f.__str__.__str__").run 30 (Machine.start .standard) = .done value after ∧
      value.classId = .function ∧ value.function?.map Function.name = some "__str__" ∧
      value.member? "__str__" = none ∧ value.member? "__bool__" = none ∧
      (RuleSet.standard.engine 30).stringify value Arena.root after = .done "<function>" shown := by
  obtain ⟨value, after, ran, tested⟩ := Outcome.gives_done
    ((Script.text "fn f() \x7b \x7d f.__str__.__str__").run 30 (Machine.start .standard))
    (fun value after => decide (value.classId = .function) && decide (value.function?.map Function.name = some "__str__") &&
      (value.member? "__str__").isNone && (value.member? "__bool__").isNone &&
      ((RuleSet.standard.engine 30).stringify value Arena.root after).gives fun text _ => text == "<function>")
    (by decide +kernel)
  simp only [Bool.and_eq_true, decide_eq_true_eq, Option.isNone_iff_eq_none] at tested
  obtain ⟨⟨⟨⟨function, named⟩, textless⟩, truthless⟩, shows⟩ := tested
  obtain ⟨text, shown, told, same⟩ := Outcome.gives_done _ _ shows
  rw [eq_of_beq same] at told
  exact ⟨value, after, shown, .first_script .standard _ 30 value after ran, ran, function, named, textless, truthless, told⟩

end CoopScript
