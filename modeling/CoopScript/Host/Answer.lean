import CoopScript.Machine.State

set_option autoImplicit false
namespace CoopScript

structure ClassReport where
  id : ClassId
  info : ClassInfo

inductive Answer where
  | nothing
  | flag (flag : Bool)
  | count (number : Nat)
  | text (text : String)
  | value (value : Value)
  | value? (value : Option Value)
  | line (value : Option Value)
  | report (report : TickReport)
  | task (state : Option TaskState) (settled : Bool)
  | frame (id : FrameId)
  | frame? (id : Option FrameId)
  | bindings (bindings : Bindings)
  | class? (report : Option ClassReport)
  | member (shown : Option Value) (hidden : Option (Member Value))

end CoopScript
