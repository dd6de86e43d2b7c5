import CoopScript.Proofs.Stage.Lawful

set_option autoImplicit false
namespace CoopScript

/-- How far a program goes: whether it awaits promises, whether the last argument of a call may be a call itself, and
whether an operation that refuses some values may be given that of a call. -/
structure Leeway where
  awaits : Bool
  nests : Bool
  risks : Bool

def Cause.isRefusal : Cause → Bool
  | unknownVariable _ | unknownArgument .. | repeatedArgument .. | positionalAfterKeyword _ | tooManyArguments ..
  | indexNotNumber _ | notIndexable _ | missingMember .. | notNegatable _ | unsupportedOperands .. | outOfBounds ..
  | notCallable _ | returnOutside => true
  | _ => false

theorem Cause.refusal_settles (cause : Cause) (refusal : cause.isRefusal = true) : cause.isStranding = false := by
  cases cause <;> first | rfl | cases refusal

namespace Leeway

def full : Leeway := ⟨true, true, true⟩

-- The failures that there still can be after the machine was halted. Promises are not waited for any more, a sleep
-- may be given no duration, the call limit may be met by a call whose argument halted the machine, and an operation
-- may refuse what a call that was cut short has given.
def Allows (leeway : Leeway) (failure : Failure) : Prop :=
  ∃ cause, failure.HasCause cause ∧
    ((leeway.awaits = true ∧
        (cause = .interrupted ∨ ∃ task, cause = .alreadyAwaited task ∨ cause = .unknownTask task)) ∨
      ((leeway.nests = true ∨ leeway.risks = true) ∧
        (cause = .badDuration ∨ ∃ limit name, cause = .depthExceeded limit name)) ∨
      (leeway.risks = true ∧ cause.isRefusal = true))

end Leeway

namespace Node

def literal : Node → Bool
  | number _ | text _ | void => true
  | _ => false

mutual

-- Expressions that cannot halt the machine, as nothing is called or awaited in them, or those that may where this is
-- risked.
def still (leeway : Leeway) : Node → Bool
  | number _ | text _ | void | reference .. => true
  | binary name _ _ left right => name == "binary" && left.still leeway && right.still leeway
  | unary name _ _ operand => name == "unary" && operand.still leeway
  | group name _ inner => name == "group" && inner.still leeway
  | assign name _ _ value => name == "assign" && value.still leeway
  | access name _ object _ => name == "access" && object.still leeway
  | index name _ object place => name == "index" && object.still leeway && place.still leeway
  | array name _ items => name == "array" && allStill leeway items
  | await name _ operand => leeway.risks && leeway.awaits && name == "await" && operand.still leeway
  | call name _ callee arguments => leeway.risks && name == "call" && callee.still leeway && allStill leeway arguments
  | _ => false

def allStill (leeway : Leeway) : List Node → Bool
  | [] => true
  | node :: rest => node.still leeway && allStill leeway rest

end

mutual

-- Expressions whose parts come to their value even if a call in them was cut short. What comes after such a call has
-- to be a literal.
def tolerant (leeway : Leeway) : Node → Bool
  | number _ | text _ | void | reference .. => true
  | binary name _ op left right =>
    name == "binary" &&
      match op with
      | .both | .either | .equal | .notEqual =>
        left.still leeway && right.tolerant leeway || left.tolerant leeway && right.literal
      | _ => left.still leeway && right.still leeway
  | unary name _ .not operand => name == "unary" && operand.tolerant leeway
  | unary name _ .negate operand => name == "unary" && operand.still leeway
  | group name _ inner => name == "group" && inner.tolerant leeway
  | assign name _ _ value => name == "assign" && value.tolerant leeway
  | access name _ object _ => name == "access" && object.still leeway
  | index name _ object place => name == "index" && object.still leeway && place.still leeway
  | array name _ items => name == "array" && tolerantItems leeway items
  | await name _ operand => leeway.awaits && name == "await" && operand.tolerant leeway
  | call name _ callee arguments => name == "call" && callee.still leeway && tolerantArguments leeway arguments
  | _ => false

def tolerantItems (leeway : Leeway) : List Node → Bool
  | [] => true
  | item :: rest => item.still leeway && tolerantItems leeway rest || item.tolerant leeway && rest.all literal

def tolerantArguments (leeway : Leeway) : List Node → Bool
  | [] => true
  | argument :: rest =>
    argument.still leeway && tolerantArguments leeway rest ||
      leeway.nests && argument.tolerant leeway && rest.isEmpty

end

mutual

-- Statements made of such expressions. What is returned may come from a call inside a function only, where a return
-- always finds the function that it is for.
def prudent (leeway : Leeway) (inside : Bool) : Node → Bool
  | function keyword _ _ _ _ body => keyword == "fn" && allPrudent leeway true body
  | giveBack keyword _ none => keyword == "return"
  | giveBack keyword _ (some value) => keyword == "return" && (value.still leeway || inside && value.tolerant leeway)
  | branch keyword _ condition whenTrue none =>
    keyword == "if" && condition.tolerant leeway && allPrudent leeway inside whenTrue
  | branch keyword _ condition whenTrue (some whenFalse) =>
    keyword == "if" && condition.tolerant leeway && allPrudent leeway inside whenTrue &&
      allPrudent leeway inside whenFalse
  | loop keyword _ condition body => keyword == "while" && condition.tolerant leeway && allPrudent leeway inside body
  | block keyword _ body => keyword == "block" && allPrudent leeway inside body
  | node => node.tolerant leeway

def allPrudent (leeway : Leeway) (inside : Bool) : List Node → Bool
  | [] => true
  | node :: rest => node.prudent leeway inside && allPrudent leeway inside rest

end

variable (leeway : Leeway)

theorem all_still_iff (nodes : List Node) : allStill leeway nodes = true ↔ ∀ node ∈ nodes, node.still leeway = true := by
  induction nodes with
  | nil => simp [allStill]
  | cons node rest ih => simp [allStill, ih]

theorem all_prudent_iff (inside : Bool) (lines : List Node) :
    allPrudent leeway inside lines = true ↔ ∀ line ∈ lines, line.prudent leeway inside = true := by
  induction lines with
  | nil => simp [allPrudent]
  | cons line rest ih => simp [allPrudent, ih]

theorem still_arguments (arguments : List Node) (still : ∀ argument ∈ arguments, argument.still leeway = true) :
    tolerantArguments leeway arguments = true := by
  induction arguments with
  | nil => rfl
  | cons argument rest ih =>
    have later := ih fun other member => still other (List.mem_cons_of_mem _ member)
    simp only [tolerantArguments, still argument List.mem_cons_self, later, Bool.true_and, Bool.true_or]

end Node

end CoopScript
