import CoopScript.Value.Basic

/-!
Frames of variables, linked from the inside out. A frame lives in a slot and is counted: once for
everyone who holds it and once for every frame inside it. When the last one lets go, the slot is
emptied, its generation goes up, and the frame around it loses one holder in turn; a name for a frame
that is gone never finds the slot's next tenant.
-/
set_option autoImplicit false
namespace CoopScript

structure FrameId where
  index : Nat
  generation : UInt32
deriving DecidableEq

structure Frame where
  bindings : Bindings
  parent : Option FrameId
  isFunction : Bool
  returned : Option Value
  holds : Nat

structure Slot where
  generation : UInt32
  frame : Option Frame

-- `free` lists the empty slots, the one emptied last first.
structure Arena where
  slots : Array Slot
  free : List Nat

namespace Frame

def fresh (parent : Option FrameId) (isFunction : Bool) (bindings : Bindings) : Frame :=
  ⟨bindings, parent, isFunction, none, 1⟩

end Frame

namespace Arena

def root : FrameId := ⟨0, 0⟩

def initial : Arena := ⟨#[⟨0, some (.fresh none false .empty)⟩], []⟩

def stale (id : FrameId) : Cause := .staleFrame id.index

def frame? (arena : Arena) (id : FrameId) : Option Frame :=
  match arena.slots[id.index]? with
  | some slot => if slot.generation = id.generation then slot.frame else none
  | none => none

def frame (arena : Arena) (id : FrameId) : Except Cause Frame :=
  match arena.frame? id with
  | some frame => .ok frame
  | none => .error (stale id)

def isLive (arena : Arena) (id : FrameId) : Bool := (arena.frame? id).isSome

def liveCount (arena : Arena) : Nat := arena.slots.countP fun slot => slot.frame.isSome

def setFrame (arena : Arena) (index : Nat) (frame : Frame) : Arena :=
  { arena with
    slots := arena.slots.modify index fun slot => { slot with frame := some frame } }

def update (arena : Arena) (id : FrameId) (change : Frame → Frame) : Except Cause Arena :=
  match arena.frame? id with
  | some frame => .ok (arena.setFrame id.index (change frame))
  | none => .error (stale id)

-- Puts a frame into the slot emptied last, or into a new one.
def allocate (arena : Arena) (frame : Frame) : FrameId × Arena :=
  match arena.free with
  | index :: free =>
    let generation := match arena.slots[index]? with
      | some slot => slot.generation
      | none => 0
    (⟨index, generation⟩, { arena.setFrame index frame with free := free })
  | [] => (⟨arena.slots.size, 0⟩, { arena with slots := arena.slots.push ⟨0, some frame⟩ })

def retain (arena : Arena) (id : FrameId) : Except Cause Arena :=
  arena.update id fun frame => { frame with holds := frame.holds + 1 }

def push (arena : Arena) (parent : FrameId) (isFunction : Bool) (bindings : Bindings) :
    Except Cause (FrameId × Arena) :=
  (arena.retain parent).map fun arena => arena.allocate (.fresh (some parent) isFunction bindings)

def vacate (arena : Arena) (index : Nat) : Arena :=
  { slots := arena.slots.modify index fun slot =>
      { slot with frame := none, generation := slot.generation + 1 }
    free := index :: arena.free }

-- Lets go of a frame and of those around it as their counts run out. The fault, if any, is met after the frames
-- before it are gone.
def releaseChain (arena : Arena) : Nat → FrameId → Arena × Option Cause
  | 0, _ => (arena, none)
  | fuel + 1, id =>
    match arena.frame? id with
    | none => (arena, some (stale id))
    | some frame =>
      if 1 < frame.holds then
        (arena.setFrame id.index { frame with holds := frame.holds - 1 }, none)
      else
        match frame.parent with
        | some parent => (arena.vacate id.index).releaseChain fuel parent
        | none => (arena.vacate id.index, none)

-- No chain is longer than there are slots.
def reach (arena : Arena) : Nat := arena.slots.size + 1

def release (arena : Arena) (id : FrameId) : Arena × Option Cause :=
  arena.releaseChain arena.reach id

def searchChain {α : Type} (arena : Arena) (ask : FrameId → Frame → Option α) :
    Nat → FrameId → Except Cause (Option α)
  | 0, _ => .ok none
  | fuel + 1, id =>
    match arena.frame? id with
    | none => .error (stale id)
    | some frame =>
      match ask id frame with
      | some answer => .ok (some answer)
      | none =>
        match frame.parent with
        | some parent => arena.searchChain ask fuel parent
        | none => .ok none

def search {α : Type} (arena : Arena) (ask : FrameId → Frame → Option α) (id : FrameId) :
    Except Cause (Option α) :=
  arena.searchChain ask arena.reach id

def lookUp (arena : Arena) (id : FrameId) (name : String) : Except Cause Value :=
  match arena.search (fun _ frame => frame.bindings.find? name) id with
  | .ok (some value) => .ok value
  | .ok none => .error (.unknownVariable name)
  | .error cause => .error cause

def setVariable (arena : Arena) (id : FrameId) (name : String) (value : Value) :
    Except Cause Arena :=
  arena.update id fun frame => { frame with bindings := frame.bindings.insert name value }

-- The frame that an assignment writes to: the nearest that binds the name, no further out than the first function
-- frame, or `id` itself.
def target (arena : Arena) (id : FrameId) (name : String) : Except Cause FrameId :=
  let ask (candidate : FrameId) (frame : Frame) : Option FrameId :=
    if frame.bindings.contains name then some candidate
    else if frame.isFunction then some id
    else none
  (arena.search ask id).map fun found => found.getD id

def assign (arena : Arena) (id : FrameId) (name : String) (value : Value) : Except Cause Arena :=
  match arena.target id name with
  | .ok target => arena.setVariable target name value
  | .error cause => .error cause

-- The nearest frame of a function, this one included.
def functionFrame (arena : Arena) (id : FrameId) : Except Cause (Option FrameId) :=
  arena.search (fun candidate frame => if frame.isFunction then some candidate else none) id

def setReturn (arena : Arena) (id : FrameId) (value : Value) : Except Cause Arena :=
  match arena.functionFrame id with
  | .ok (some function) => arena.update function fun frame => { frame with returned := some value }
  | .ok none => .error .returnOutside
  | .error cause => .error cause

def hasReturned (arena : Arena) (id : FrameId) : Bool :=
  match arena.frame? id with
  | some frame => frame.returned.isSome
  | none => false

def takeReturn (arena : Arena) (id : FrameId) : Except Cause (Option Value × Arena) :=
  match arena.frame? id with
  | some frame => .ok (frame.returned, arena.setFrame id.index { frame with returned := none })
  | none => .error (stale id)

end Arena
end CoopScript
