import CoopScript.Text.Cluster

set_option autoImplicit false
namespace CoopScript.Text

def backspace : Char := '\x08'

-- What was typed so far, the last character first, and the number of bytes that each backspace will take away, the
-- next one first.
structure Typed where
  text : List Char
  sizes : List Nat

namespace Typed

def empty : Typed := ⟨[], []⟩

-- The bytes of a cluster, counted in one byte: a cluster of 256 counts as empty.
def sizeOf (cluster : List Char) : Nat := (cluster.map Char.utf8Size).foldr Nat.add 0 % 256

def dropBytes (size : Nat) : List Char → List Char
  | [] => []
  | c :: rest =>
    if c.utf8Size ≤ size then dropBytes (size - c.utf8Size) rest else c :: rest

def type (typed : Typed) (cluster : List Char) : Typed :=
  if cluster = [backspace] then
    match typed.sizes with
    | [] => typed
    | size :: sizes => ⟨dropBytes size typed.text, sizes⟩
  else ⟨cluster.reverse ++ typed.text, sizeOf cluster :: typed.sizes⟩

end Typed

def edited (line : List Char) : List Char :=
  if line.contains backspace then
    ((clusters line).foldl Typed.type .empty).text.reverse
  else line

end CoopScript.Text
