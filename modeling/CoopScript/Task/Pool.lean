import CoopScript.Value.Basic

set_option autoImplicit false
namespace CoopScript

structure Job where
  task : TaskId
  outcome : Option Scalar
  due : Nat

-- `freeAt` has the time at which each worker is free again.
structure Pool where
  freeAt : List Nat
  jobs : List Job
  submitted : Nat

namespace Pool

def ofWorkers (workers : Nat) : Pool := ⟨List.replicate (max workers 1) 0, [], 0⟩

-- Replaces the first of the smallest numbers by `change` of it.
def occupy (change : Nat → Nat) : List Nat → List Nat
  | [] => []
  | time :: rest =>
    if rest.all (time ≤ ·) then change time :: rest else time :: occupy change rest

def earliest (times : List Nat) : Nat := times.min?.getD 0

def submit (pool : Pool) (now : Nat) (task : TaskId) (outcome : Option Scalar) (duration : Nat) :
    Pool :=
  let due (time : Nat) := max time now + duration
  { pool with
    freeAt := occupy due pool.freeAt
    jobs := pool.jobs ++ [⟨task, outcome, due (earliest pool.freeAt)⟩]
    submitted := pool.submitted + 1 }

def insertByEnd (job : Job) : List Job → List Job
  | [] => [job]
  | first :: rest =>
    if first.due ≤ job.due then first :: insertByEnd job rest else job :: first :: rest

def byEnd (jobs : List Job) : List Job := jobs.foldl (fun sorted job => insertByEnd job sorted) []

def collect (pool : Pool) (now : Nat) : List Job × Pool :=
  let (ended, running) := pool.jobs.partition fun job => job.due ≤ now
  (byEnd ended, { pool with jobs := running })

def outstanding (pool : Pool) : Nat := pool.jobs.length

end Pool
end CoopScript
