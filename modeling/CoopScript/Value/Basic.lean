import CoopScript.Host.Action
import CoopScript.NameMap

set_option autoImplicit false
namespace CoopScript

structure ClassId where
  index : Nat
deriving DecidableEq

structure TaskId where
  number : Nat
deriving DecidableEq

inductive Builtin where
  | objectText
  | objectTruth
  | functionText
  | voidText
  | voidTruth
  | numberText
  | stringText
  | stringLength
  | booleanText
  | booleanTruth
  | arrayText
  | arrayTruth
  | arrayLength
  | promiseText
  | print
  | exit
  | sleep
deriving DecidableEq

inductive Behaviour (V : Type) where
  | const (value : V)
  | target
  | function
  | argument (name : String)
  | arguments
  | echo
  | apply (name : String)
  | perform (actions : List Action)
  | fail (kind : Kind) (message : String)

inductive Native (V : Type) where
  | builtin (code : Builtin)
  | behaviour (code : Behaviour V)

inductive Body (V : Type) where
  | script (lines : List Node)
  | native (code : Native V)

structure Function (V : Type) where
  name : String
  parameters : Parameters
  body : Body V
  isAsync : Bool

inductive Hook (V : Type) where
  | standard
  | behaviour (code : Behaviour V)

inductive Member (V : Type) where
  | value (value : V)
  | hook (hook : Hook V)

inductive Data (V : Type) where
  | none
  | void
  | number (value : Float)
  | text (value : String)
  | flag (value : Bool)
  | array (identity : Nat) (items : List V)
  | function (identity : Nat) (function : Function V)
  | promise (task : TaskId)

structure Value where
  classId : ClassId
  members : NameMap Value
  hidden : NameMap (Member Value)
  data : Data Value

abbrev Bindings := NameMap Value

namespace Value

def member? (value : Value) (name : String) : Option Value := value.members.find? name

def hidden? (value : Value) (name : String) : Option (Member Value) := value.hidden.find? name

def setMember (value : Value) (name : String) (member : Value) : Value :=
  { value with members := value.members.insert name member }

def setHidden (value : Value) (name : String) (member : Member Value) : Value :=
  { value with hidden := value.hidden.insert name member }

def number? (value : Value) : Option Float :=
  match value.data with
  | .number x => some x
  | _ => none

def text? (value : Value) : Option String :=
  match value.data with
  | .text text => some text
  | _ => none

def flag? (value : Value) : Option Bool :=
  match value.data with
  | .flag flag => some flag
  | _ => none

def items? (value : Value) : Option (List Value) :=
  match value.data with
  | .array _ items => some items
  | _ => none

def function? (value : Value) : Option (Function Value) :=
  match value.data with
  | .function _ function => some function
  | _ => none

def task? (value : Value) : Option TaskId :=
  match value.data with
  | .promise task => some task
  | _ => none

def isVoid (value : Value) : Bool :=
  match value.data with
  | .void => true
  | _ => false

end Value
end CoopScript
