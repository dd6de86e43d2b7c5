import CoopScript.Diagnostic.Basic
import CoopScript.Machine.State

set_option autoImplicit false
namespace CoopScript

inductive Outcome (α : Type) where
  | done (value : α) (machine : Machine)
  | failed (failure : Failure) (machine : Machine)
  | outOfFuel

def Exec (α : Type) := Machine → Outcome α

namespace Exec
variable {α β σ : Type}

@[inline] def pure (value : α) : Exec α := fun machine => .done value machine

@[inline] def bind (first : Exec α) (next : α → Exec β) : Exec β := fun machine =>
  match first machine with
  | .done value machine => next value machine
  | .failed failure machine => .failed failure machine
  | .outOfFuel => .outOfFuel

instance : Monad Exec where
  pure := pure
  bind := bind

def exhausted : Exec α := fun _ => .outOfFuel

def raise (failure : Failure) : Exec α := fun machine => .failed failure machine

def fail (cause : Cause) : Exec α := raise (.of cause)

def failAt (cause : Cause) (position : Position) : Exec α := raise (.located cause position)

@[inline] def attempt (step : Exec α) : Exec (Except Failure α) := fun machine =>
  match step machine with
  | .done value machine => .done (.ok value) machine
  | .failed failure machine => .done (.error failure) machine
  | .outOfFuel => .outOfFuel

def ofOutcome : Except Failure α → Exec α
  | .ok value => pure value
  | .error failure => raise failure

@[inline] def mapFailure (change : Failure → Failure) (step : Exec α) : Exec α := fun machine =>
  match step machine with
  | .done value machine => .done value machine
  | .failed failure machine => .failed (change failure) machine
  | .outOfFuel => .outOfFuel

@[inline] def read (view : Machine → α) : Exec α := fun machine => .done (view machine) machine

@[inline] def modify (change : Machine → Machine) : Exec Unit := fun machine =>
  .done () (change machine)

def iterate (step : σ → Exec (σ ⊕ α)) : Nat → σ → Exec α
  | 0, _, _ => .outOfFuel
  | fuel + 1, state, machine =>
    match step state machine with
    | .done (.inl state) machine => iterate step fuel state machine
    | .done (.inr value) machine => .done value machine
    | .failed failure machine => .failed failure machine
    | .outOfFuel => .outOfFuel

def each (action : α → Exec Unit) : List α → Exec Unit
  | [] => pure ()
  | first :: rest => do
    action first
    each action rest

def collect (action : α → Exec β) : List α → Exec (List β)
  | [] => pure []
  | first :: rest => do
    let value ← action first
    return value :: (← collect action rest)

end Exec
end CoopScript
