import CoopScript.Diagnostic.Cause
import CoopScript.Program.Node

set_option autoImplicit false
namespace CoopScript

inductive Parameters where
  | named (names : List String)
  | variadic
deriving DecidableEq

inductive ClassKind where
  | object
  | void
  | number
  | string
  | boolean
  | function
  | array
  | promise
  | user
deriving DecidableEq

-- What an event reports after a turn: nothing done, waiting for work elsewhere, work produced, or nothing left to do
-- ever.
inductive EventStatus where
  | idle
  | busy
  | progress
  | done
deriving DecidableEq

inductive Scalar where
  | void
  | number (value : Float)
  | text (value : String)
  | flag (value : Bool)

inductive Label where
  | named (name : String)
  | numbered (number : Nat)

mutual

inductive Operand where
  | void
  | flag (value : Bool)
  | number (value : Float)
  | text (value : String)
  | array (items : List Operand)
  | binding (frame name : String)
  | slot (name : String)
  | promise (task : Label)
  | plain (className : String)
  | carrying (className : String) (data : Operand)
  | native (name : String) (parameters : Parameters) (recipe : Recipe)

inductive Recipe where
  | const (value : Operand)
  | target
  | function
  | argument (name : String)
  | arguments
  | echo
  | apply (name : String)
  | perform (actions : List Action)
  | fail (kind : Kind) (message : String)

inductive Action where
  | mark (text : String)
  | fail (kind : Kind) (message : String)
  | halt
  | clearHalt
  | load (name source frame : String)
  | loadNodes (name : String) (nodes : List Node) (frame : String)
  | createRunner (name source frame : String)
  | tick
  | run
  | reset
  | isUnwinding (frame : String)
  | isFinished (runner : String)
  | finish (runner : String)
  | enqueue (source : String) (index : Nat) (runner frame : String)
  | execute (source : String) (index : Nat) (frame : String)
  | runBlock (source frame : String)
  | enqueueMicrotask (actions : List Action)
  | registerEvent (name : String) (turns : List Turn)
  | removeEvent (name : String)
  | spawn (name : String) (outcome : Option Scalar) (milliseconds : Nat)
  | await (task : Label)
  | createTask (name : String)
  | settleTask (task : Label) (value : Operand)
  | consumeTask (task : Label)
  | taskState (task : Label)
  | pushFrame (name parent : String) (isFunction : Bool)
  | pushFunctionFrame (name parent : String) (bindings : List (String × Operand))
  | retainFrame (frame : String)
  | releaseFrame (frame : String)
  | isLive (frame : String)
  | parentOf (frame : String)
  | isFunctionFrame (frame : String)
  | functionFrameOf (frame : String)
  | lookUp (frame name : String)
  | setVariable (frame name : String) (value : Operand)
  | assignVariable (frame name : String) (value : Operand)
  | bindingsOf (frame : String)
  | setReturn (frame : String) (value : Operand)
  | hasReturned (frame : String)
  | takeReturn (frame : String)
  | defineClass (name : String) (kind : ClassKind) (ancestors : List Label)
      (members hidden : List (String × Operand)) (hooks : List (String × Recipe))
  | describeClass (name : String)
  | inheritsFrom (name ancestor : String)
  | store (name : String) (value : Operand)
  | setMember (slot name : String) (value : Operand)
  | setHidden (slot name : String) (value : Operand)
  | memberOf (value : Operand) (name : String)
  | membersOf (value : Operand)
  | isFunction (value : Operand)
  | isVoid (value : Operand)
  | textOf (value : Operand) (frame : String)
  | truthOf (value : Operand) (frame : String)
  | areEqual (left right : Operand)
  | operate (op : Option BinaryOp) (left right : Operand)
  | bindArguments (function : String) (parameters : Parameters) (arguments frame : String)
  | call (function : Operand) (target : Option Operand) (arguments frame : String)
  | invoke (function : Operand) (target : Option Operand) (bindings : List (String × Operand))
      (frame : String)

inductive Turn where
  | mk (actions : List Action) (status : EventStatus)

end

instance : Inhabited Operand := ⟨.void⟩

instance : Inhabited Recipe := ⟨.target⟩

instance : Inhabited Action := ⟨.halt⟩

instance : Inhabited Turn := ⟨.mk [] .idle⟩

end CoopScript
