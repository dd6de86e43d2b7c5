import CoopScript.Number.Shortest
import CoopScript.Program.Operator
import CoopScript.Source.Position
import CoopScript.Text.Quoted

set_option autoImplicit false
namespace CoopScript

inductive Node where
  | number (value : Float)
  | text (value : String)
  | void
  | reference (name : String) (position : Position)
  | binary (name : String) (position : Position) (op : BinaryOp) (left right : Node)
  | unary (name : String) (position : Position) (op : UnaryOp) (operand : Node)
  | group (name : String) (position : Position) (inner : Node)
  | call (name : String) (position : Position) (callee : Node) (arguments : List Node)
  | assign (name : String) (position : Position) (target : String) (value : Node)
  | access (name : String) (position : Position) (object : Node) (member : String)
  | array (name : String) (position : Position) (items : List Node)
  | index (name : String) (position : Position) (object place : Node)
  | await (name : String) (position : Position) (operand : Node)
  | function (keyword : String) (position : Position) (name : String) (parameters : List String)
      (isAsync : Bool) (body : List Node)
  | giveBack (keyword : String) (position : Position) (value : Option Node)
  | branch (keyword : String) (position : Position) (condition : Node) (whenTrue : List Node)
      (whenFalse : Option (List Node))
  | loop (keyword : String) (position : Position) (condition : Node) (body : List Node)
  | block (keyword : String) (position : Position) (body : List Node)

instance : Inhabited Node := ⟨.void⟩

inductive Head where
  | number (value : Float)
  | text (value : String)
  | void
  | reference (name : String) (position : Position)
  | expression (name : String) (position : Position)
  | statement (keyword : String) (position : Position)

namespace Node

def head : Node → Head
  | number value => .number value
  | text value => .text value
  | void => .void
  | reference name position => .reference name position
  | binary name position .. | unary name position .. | group name position _
  | call name position .. | assign name position .. | access name position ..
  | array name position _ | index name position .. | await name position _ =>
    .expression name position
  | function keyword position .. | giveBack keyword position _ | branch keyword position ..
  | loop keyword position .. | block keyword position _ => .statement keyword position

def position? (node : Node) : Option Position :=
  match node.head with
  | .number _ | .text _ | .void => none
  | .reference _ position | .expression _ position | .statement _ position => some position

def label (node : Node) : String :=
  match node.head with
  | .expression name _ => name
  | .statement keyword _ => keyword
  | _ => ""

def describe (node : Node) : String :=
  match node.head with
  | .number value => "number " ++ Number.shortestText value
  | .text value => "string " ++ Text.quoted value
  | .void => "void"
  | .reference name _ => "variable `" ++ name ++ "`"
  | .expression name _ => name ++ " expression"
  | .statement keyword _ => keyword ++ " statement"

def assignment? : Node → Option (String × Node)
  | assign _ _ target value => some (target, value)
  | _ => none

end Node
end CoopScript
