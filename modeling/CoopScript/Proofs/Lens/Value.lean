import CoopScript.Machine.Call
import CoopScript.Value.Equality
import CoopScript.Proofs.Grammar.Canonical

set_option autoImplicit false
namespace CoopScript

-- Of the tasks of a machine, of which there are `total`, only the first `known` are looked at. Identities from
-- `named` on are of functions that are made later.
structure Bound where
  known : Nat
  total : Nat
  named : Nat

-- What is seen through a lens: places are blurred, or not; functions of some identities are not seen to be
-- asynchronous; runners have higher numbers, with other ones before them; and if only some tasks are looked at, other
-- states stand in for the rest. `exact` is whether a run that ends is told from one that does not.
structure Lens where
  blurs : Bool
  deaf : Nat → Bool
  offset : Nat
  outer : List (RunnerId × Runner)
  bound : Option Bound
  extra : List TaskState
  exact : Prop
  outside : ∀ entry ∈ outer, entry.1.number ≤ offset
  hears : ∀ identity, deaf identity = true → ∃ few, bound = some few ∧ identity < few.named

namespace Lens

theorem none_outside : ∀ entry ∈ ([] : List (RunnerId × Runner)), entry.1.number ≤ 0 := List.forall_mem_nil _

theorem none_deaf : ∀ identity : Nat, false = true → ∃ few, (none : Option Bound) = some few ∧ identity < few.named :=
  fun _ deaf => absurd deaf Bool.false_ne_true

end Lens

namespace NameMap
variable {α β : Type}

def map (change : α → β) (entries : NameMap α) : NameMap β :=
  ⟨entries.entries.map fun entry => (entry.1, change entry.2)⟩

variable (change : α → β) (entries : NameMap α) (name : String)

@[simp] theorem find_map : (entries.map change).find? name = (entries.find? name).map change := by
  obtain ⟨entries⟩ := entries
  simp only [map, find?]
  induction entries with
  | nil => rfl
  | cons entry rest ih =>
    simp only [List.map_cons, lookup]
    split
    · rfl
    · exact ih

@[simp] theorem contains_map : (entries.map change).contains name = entries.contains name := by
  simp [contains]

@[simp] theorem insert_map (value : α) :
    (entries.map change).insert name (change value) = (entries.insert name value).map change := by
  obtain ⟨entries⟩ := entries
  simp only [map, insert, mk.injEq]
  induction entries with
  | nil => rfl
  | cons entry rest ih =>
    simp only [List.map_cons, place]
    split
    · rfl
    · rw [ih, List.map_cons]

@[simp] theorem values_map : (entries.map change).values = entries.values.map change := by
  simp [map, values, Function.comp_def]

end NameMap

namespace Lens
variable (lens : Lens)

def spot (position : Position) : Position := if lens.blurs then default else position

def node (node : Node) : Node := if lens.blurs then node.unplaced else node

def lines (lines : List Node) : List Node := lines.map lens.node

def head : Head → Head
  | .reference name position => .reference name (lens.spot position)
  | .expression name position => .expression name (lens.spot position)
  | .statement keyword position => .statement keyword (lens.spot position)
  | other => other

def body : Body Value → Body Value
  | .script lines => .script (lens.lines lines)
  | .native code => .native code

def function (deaf : Bool) (content : Function Value) : Function Value :=
  { content with body := lens.body content.body, isAsync := content.isAsync && !deaf }

mutual

def value (lens : Lens) : Value → Value
  | ⟨id, ⟨members⟩, hidden, data⟩ => ⟨id, ⟨lens.members members⟩, hidden, lens.data data⟩

def members (lens : Lens) : List (String × Value) → List (String × Value)
  | [] => []
  | (name, member) :: rest => (name, lens.value member) :: lens.members rest

def data (lens : Lens) : Data Value → Data Value
  | .array identity items => .array identity (lens.items items)
  | .function identity content => .function identity (lens.function (lens.deaf identity) content)
  | .none => .none
  | .void => .void
  | .number x => .number x
  | .text text => .text text
  | .flag flag => .flag flag
  | .promise task => .promise task

def items (lens : Lens) : List Value → List Value
  | [] => []
  | item :: rest => lens.value item :: lens.items rest

end

def bindings (bindings : Bindings) : Bindings := bindings.map lens.value

def failure : Failure → Failure
  | .fault diagnostic => .fault
    { cause := diagnostic.cause
      position := diagnostic.position.map lens.spot
      notes := diagnostic.notes.map fun
        | .whileExecuting what position => .whileExecuting what (position.map lens.spot)
        | note => note }
  | .missingFile => .missingFile

theorem all_heard (identity : Nat) (all : lens.bound = none) : lens.deaf identity = false := by
  cases unheard : lens.deaf identity with
  | false => rfl
  | true =>
    obtain ⟨few, bounded, _⟩ := lens.hears identity unheard
    cases all.symm.trans bounded

section Nodes
variable (name : String) (position : Position)

theorem node_sharp (sharp : lens.blurs = false) (node : Node) : lens.node node = node := by simp [Lens.node, sharp]

theorem spot_sharp (sharp : lens.blurs = false) (spot : Position) : lens.spot spot = spot := by simp [Lens.spot, sharp]

@[simp] theorem lines_cons (node : Node) (rest : List Node) :
    lens.lines (node :: rest) = lens.node node :: lens.lines rest := rfl

theorem lines_sharp (sharp : lens.blurs = false) (lines : List Node) : lens.lines lines = lines := by
  have same : lens.node = id := funext (lens.node_sharp sharp)
  simp [Lens.lines, same]

theorem unplaced_lines (lines : List Node) (blurs : lens.blurs = true) : Node.unplacedAll lines = lens.lines lines := by
  rw [Node.unplaced_all]
  exact List.map_congr_left fun node _ => by simp [Lens.node, blurs]

-- A tree is seen part by part.
@[simp] theorem node_number (x : Float) : lens.node (.number x) = .number x := by
  unfold Lens.node
  split <;> rfl

@[simp] theorem node_text (text : String) : lens.node (.text text) = .text text := by
  unfold Lens.node
  split <;> rfl

@[simp] theorem node_void : lens.node .void = .void := by
  unfold Lens.node
  split <;> rfl

@[simp] theorem node_reference : lens.node (.reference name position) = .reference name (lens.spot position) := by
  unfold Lens.node spot
  split <;> rfl

@[simp] theorem node_binary (op : BinaryOp) (left right : Node) : lens.node (.binary name position op left right) =
    .binary name (lens.spot position) op (lens.node left) (lens.node right) := by
  unfold Lens.node spot
  split <;> rfl

@[simp] theorem node_unary (op : UnaryOp) (operand : Node) :
    lens.node (.unary name position op operand) = .unary name (lens.spot position) op (lens.node operand) := by
  unfold Lens.node spot
  split <;> rfl

@[simp] theorem node_group (inner : Node) :
    lens.node (.group name position inner) = .group name (lens.spot position) (lens.node inner) := by
  unfold Lens.node spot
  split <;> rfl

@[simp] theorem node_call (callee : Node) (arguments : List Node) : lens.node (.call name position callee arguments) =
    .call name (lens.spot position) (lens.node callee) (lens.lines arguments) := by
  cases blurs : lens.blurs
  · simp only [lens.node_sharp blurs, lens.spot_sharp blurs, lens.lines_sharp blurs]
  · simp only [Lens.node, spot, blurs, ← lens.unplaced_lines arguments blurs]
    rfl

@[simp] theorem node_assign (target : String) (content : Node) : lens.node (.assign name position target content) =
    .assign name (lens.spot position) target (lens.node content) := by
  unfold Lens.node spot
  split <;> rfl

@[simp] theorem node_access (object : Node) (member : String) : lens.node (.access name position object member) =
    .access name (lens.spot position) (lens.node object) member := by
  unfold Lens.node spot
  split <;> rfl

@[simp] theorem node_array (items : List Node) :
    lens.node (.array name position items) = .array name (lens.spot position) (lens.lines items) := by
  cases blurs : lens.blurs
  · simp only [lens.node_sharp blurs, lens.spot_sharp blurs, lens.lines_sharp blurs]
  · simp only [Lens.node, spot, blurs, ← lens.unplaced_lines items blurs]
    rfl

@[simp] theorem node_index (object place : Node) : lens.node (.index name position object place) =
    .index name (lens.spot position) (lens.node object) (lens.node place) := by
  unfold Lens.node spot
  split <;> rfl

@[simp] theorem node_await (operand : Node) :
    lens.node (.await name position operand) = .await name (lens.spot position) (lens.node operand) := by
  unfold Lens.node spot
  split <;> rfl

@[simp] theorem node_function (function : String) (parameters : List String) (isAsync : Bool) (body : List Node) :
    lens.node (.function name position function parameters isAsync body) =
      .function name (lens.spot position) function parameters isAsync (lens.lines body) := by
  cases blurs : lens.blurs
  · simp only [lens.node_sharp blurs, lens.spot_sharp blurs, lens.lines_sharp blurs]
  · simp only [Lens.node, spot, blurs, ← lens.unplaced_lines body blurs]
    rfl

@[simp] theorem node_give_back (content : Option Node) :
    lens.node (.giveBack name position content) = .giveBack name (lens.spot position) (content.map lens.node) := by
  unfold Lens.node spot
  cases content <;> split <;> rfl

@[simp] theorem node_branch (condition : Node) (whenTrue : List Node) (whenFalse : Option (List Node)) :
    lens.node (.branch name position condition whenTrue whenFalse) =
      .branch name (lens.spot position) (lens.node condition) (lens.lines whenTrue) (whenFalse.map lens.lines) := by
  cases blurs : lens.blurs
  · cases whenFalse <;> simp only [lens.node_sharp blurs, lens.spot_sharp blurs, lens.lines_sharp blurs, Option.map_some,
      Option.map_none]
  · cases whenFalse <;> simp only [Lens.node, spot, blurs, Option.map_some, Option.map_none,
      ← lens.unplaced_lines _ blurs] <;> rfl

@[simp] theorem node_loop (condition : Node) (body : List Node) : lens.node (.loop name position condition body) =
    .loop name (lens.spot position) (lens.node condition) (lens.lines body) := by
  cases blurs : lens.blurs
  · simp only [lens.node_sharp blurs, lens.spot_sharp blurs, lens.lines_sharp blurs]
  · simp only [Lens.node, spot, blurs, ← lens.unplaced_lines body blurs]
    rfl

@[simp] theorem node_block (body : List Node) :
    lens.node (.block name position body) = .block name (lens.spot position) (lens.lines body) := by
  cases blurs : lens.blurs
  · simp only [lens.node_sharp blurs, lens.spot_sharp blurs, lens.lines_sharp blurs]
  · simp only [Lens.node, spot, blurs, ← lens.unplaced_lines body blurs]
    rfl

@[simp] theorem head_node (node : Node) : (lens.node node).head = lens.head node.head := by
  cases node <;> simp only [node_number, node_text, node_void, node_reference, node_binary, node_unary, node_group,
    node_call, node_assign, node_access, node_array, node_index, node_await, node_function, node_give_back, node_branch,
    node_loop, node_block] <;> rfl

@[simp] theorem position_node (node : Node) : (lens.node node).position? = node.position?.map lens.spot := by
  unfold Node.position?
  rw [head_node]
  cases node.head <;> rfl

@[simp] theorem label_node (node : Node) : (lens.node node).label = node.label := by
  unfold Node.label
  rw [head_node]
  cases node.head <;> rfl

@[simp] theorem describe_node (node : Node) : (lens.node node).describe = node.describe := by
  unfold Node.describe
  rw [head_node]
  cases node.head <;> rfl

@[simp] theorem assignment_node (node : Node) :
    (lens.node node).assignment? = node.assignment?.map fun found => (found.1, lens.node found.2) := by
  cases node <;> simp only [node_number, node_text, node_void, node_reference, node_binary, node_unary, node_group,
    node_call, node_assign, node_access, node_array, node_index, node_await, node_function, node_give_back, node_branch,
    node_loop, node_block] <;> rfl

end Nodes

section Values

theorem members_map (members : List (String × Value)) :
    lens.members members = members.map fun entry => (entry.1, lens.value entry.2) := by
  induction members with
  | nil => rfl
  | cons entry rest ih => exact congrArg (List.cons _) ih

@[simp] theorem items_map (items : List Value) : lens.items items = items.map lens.value := by
  induction items with
  | nil => rfl
  | cons item rest ih => exact congrArg (List.cons _) ih

theorem value_parts (value : Value) :
    lens.value value = ⟨value.classId, value.members.map lens.value, value.hidden, lens.data value.data⟩ := by
  obtain ⟨id, ⟨members⟩, hidden, data⟩ := value
  exact congrArg (fun members => (⟨id, ⟨members⟩, hidden, lens.data data⟩ : Value)) (lens.members_map members)

variable (value : Value)

@[simp] theorem class_value : (lens.value value).classId = value.classId := by rw [value_parts]

@[simp] theorem data_value : (lens.value value).data = lens.data value.data := by rw [value_parts]

@[simp] theorem hidden_value (name : String) : (lens.value value).hidden? name = value.hidden? name := by
  rw [value_parts]
  rfl

@[simp] theorem member_value (name : String) :
    (lens.value value).member? name = (value.member? name).map lens.value := by
  rw [value_parts]
  exact value.members.find_map lens.value name

@[simp] theorem number_value : (lens.value value).number? = value.number? := by
  unfold Value.number?
  rw [data_value]
  cases value.data <;> rfl

@[simp] theorem text_value : (lens.value value).text? = value.text? := by
  unfold Value.text?
  rw [data_value]
  cases value.data <;> rfl

@[simp] theorem flag_value : (lens.value value).flag? = value.flag? := by
  unfold Value.flag?
  rw [data_value]
  cases value.data <;> rfl

@[simp] theorem task_value : (lens.value value).task? = value.task? := by
  unfold Value.task?
  rw [data_value]
  cases value.data <;> rfl

@[simp] theorem items_value : (lens.value value).items? = value.items?.map (·.map lens.value) := by
  unfold Value.items?
  rw [data_value]
  cases value.data with
  | array identity items => exact congrArg some (lens.items_map items)
  | _ => rfl

theorem function_value :
    (value.function? = none ∧ (lens.value value).function? = none) ∨
      ∃ deaf content, value.function? = some content ∧
        (lens.value value).function? = some (lens.function deaf content) ∧ (lens.bound = none → deaf = false) := by
  unfold Value.function?
  rw [data_value]
  cases value.data with
  | function identity content =>
    exact .inr ⟨lens.deaf identity, content, rfl, rfl, lens.all_heard identity⟩
  | _ => exact .inl ⟨rfl, rfl⟩

mutual

theorem equals_value : (left right : Value) → (lens.value left).equals (lens.value right) = left.equals right
  | ⟨leftClass, ⟨leftMembers⟩, leftHidden, leftData⟩, ⟨rightClass, ⟨rightMembers⟩, rightHidden, rightData⟩ => by
    simp only [Lens.value, Value.equals, equals_data leftData rightData]

theorem equals_data : (left right : Data Value) →
    Value.equalData (lens.data left) (lens.data right) = Value.equalData left right
  | .array left leftItems, .array right rightItems => by
    simp only [Lens.data, Value.equalData, equals_items leftItems rightItems]
  | .function .., right | .none, right | .void, right | .number _, right | .text _, right | .flag _, right
  | .promise _, right => by cases right <;> simp only [Lens.data, Value.equalData]
  | .array .., .function .. | .array .., .none | .array .., .void | .array .., .number _ | .array .., .text _
  | .array .., .flag _ | .array .., .promise _ => by simp only [Lens.data, Value.equalData]

theorem equals_items : (left right : List Value) →
    Value.equalItems (lens.items left) (lens.items right) = Value.equalItems left right
  | [], [] => by simp only [Lens.items]
  | [], right :: rightRest => by simp only [Lens.items, Value.equalItems]
  | left :: leftRest, [] => by simp only [Lens.items, Value.equalItems]
  | left :: leftRest, right :: rightRest => by
    simp only [Lens.items, Value.equalItems, equals_value left right, equals_items leftRest rightRest]

end

attribute [simp] equals_value

end Values

section Failures
variable (failure : Failure)

@[simp] theorem failure_of (cause : Cause) : lens.failure (.of cause) = .of cause := rfl

@[simp] theorem failure_located (cause : Cause) (position : Position) :
    lens.failure (.located cause position) = .located cause (lens.spot position) := rfl

@[simp] theorem failure_or_position (position : Option Position) :
    lens.failure (failure.orPosition position) = (lens.failure failure).orPosition (position.map lens.spot) := by
  cases failure with
  | missingFile => rfl
  | fault diagnostic =>
    obtain ⟨cause, known, notes⟩ := diagnostic
    cases position <;> cases known <;> rfl

theorem failure_traced (node : Node) :
    lens.failure (Engine.trace node failure) = Engine.trace (lens.node node) (lens.failure failure) := by
  unfold Engine.trace
  rw [position_node, describe_node, ← failure_or_position]
  cases failure.orPosition node.position? with
  | missingFile => rfl
  | fault diagnostic => simp [Lens.failure, Failure.withNote, Diagnostic.withNote]

end Failures

end Lens
end CoopScript
