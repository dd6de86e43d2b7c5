import CoopScript.Machine.Memory
import CoopScript.Number.Binary64
import CoopScript.Value.Equality

set_option autoImplicit false
namespace CoopScript

namespace BinaryOp

def arithmetic? : BinaryOp → Option (Float → Float → Float)
  | add => some (· + ·)
  | sub => some (· - ·)
  | mul => some (· * ·)
  | div => some (· / ·)
  | mod => some Number.remainder
  | _ => none

def compareNumbers? : BinaryOp → Option (Float → Float → Bool)
  | less => some (· < ·)
  | lessEqual => some (· ≤ ·)
  | greater => some (· > ·)
  | greaterEqual => some (· ≥ ·)
  | _ => none

def compareTexts? : BinaryOp → Option (String → String → Bool)
  | less => some (· < ·)
  | lessEqual => some fun left right => !decide (right < left)
  | greater => some (· > ·)
  | greaterEqual => some fun left right => !decide (left < right)
  | _ => none

end BinaryOp

namespace Exec

def onNumbers (op : BinaryOp) (left right : Float) : Option (Exec Value) :=
  match op.arithmetic?, op.compareNumbers? with
  | some compute, _ => some (number (compute left right))
  | none, some holds => some (flag (holds left right))
  | none, none => none

def onTexts (op : BinaryOp) (left right : String) : Option (Exec Value) :=
  match op, op.compareTexts? with
  | .add, _ => some (text (left ++ right))
  | _, some holds => some (flag (holds left right))
  | _, none => none

def onData (op : BinaryOp) : Data Value → Data Value → Option (Exec Value)
  | .number left, .number right => onNumbers op left right
  | .text left, .text right => onTexts op left right
  | .array _ left, .array _ right => if op = .add then some (array (left ++ right)) else none
  | _, _ => none

def operate (op : BinaryOp) (left right : Value) : Exec Value :=
  match op with
  | .equal => flag (left.equals right)
  | .notEqual => flag !(left.equals right)
  | _ =>
    match onData op left.data right.data with
    | some result => result
    | none => do
      fail (.unsupportedOperands op.symbol (← nameOf left) (← nameOf right))

def itemAt (object place : Value) : Exec Value :=
  match place.number? with
  | none => do fail (.indexNotNumber (← nameOf place))
  | some position =>
    let slot := Number.natural? position
    match object.data with
    | .array _ items =>
      match slot.bind (items[·]?) with
      | some item => pure item
      | none => fail (.outOfBounds position items.length)
    | .text content =>
      match slot.bind (content.toList[·]?) with
      | some c => text (String.singleton c)
      | none => fail (.outOfBounds position content.length)
    | _ => do fail (.notIndexable (← nameOf object))

def memberOf (object : Value) (name : String) : Exec Value :=
  match object.member? name with
  | some member => pure member
  | none => do fail (.missingMember (← nameOf object) name)

end Exec
end CoopScript
