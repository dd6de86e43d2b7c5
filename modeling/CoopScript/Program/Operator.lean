set_option autoImplicit false
namespace CoopScript

inductive BinaryOp where
  | add
  | sub
  | mul
  | div
  | mod
  | equal
  | notEqual
  | less
  | lessEqual
  | greater
  | greaterEqual
  | both
  | either
deriving DecidableEq

namespace BinaryOp

def symbol : BinaryOp → String
  | add => "+"
  | sub => "-"
  | mul => "*"
  | div => "/"
  | mod => "%"
  | equal => "=="
  | notEqual => "!="
  | less => "<"
  | lessEqual => "<="
  | greater => ">"
  | greaterEqual => ">="
  | both => "&&"
  | either => "||"

def all : List BinaryOp :=
  [add, sub, mul, div, mod, equal, notEqual, less, lessEqual, greater, greaterEqual, both, either]

def ofSymbol? (text : String) : Option BinaryOp := all.find? fun op => op.symbol = text

theorem ofSymbol?_symbol (op : BinaryOp) : ofSymbol? op.symbol = some op := by
  cases op <;> rfl

end BinaryOp

inductive UnaryOp where
  | negate
  | not
deriving DecidableEq

end CoopScript
