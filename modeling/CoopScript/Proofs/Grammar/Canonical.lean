import CoopScript.Grammar.Standard
import CoopScript.Proofs.Source.Literal
import Mathlib.Data.List.Nodup

/-!
The trees that the standard grammar gives: no operand binds more loosely than the operator above it lets it.
-/
set_option autoImplicit false
namespace CoopScript

def BinaryOp.precedence : BinaryOp → Nat
  | either => Precedence.either
  | both => Precedence.both
  | equal | notEqual => Precedence.equality
  | less | lessEqual | greater | greaterEqual => Precedence.comparison
  | add | sub => Precedence.term
  | mul | div | mod => Precedence.factor

abbrev Limit := Option Nat

namespace Limit

def Allows (limit : Limit) (precedence : Nat) : Prop := ∀ least ∈ limit, precedence ≤ least

def Exceeds (limit : Limit) (precedence : Nat) : Prop := ∀ least ∈ limit, precedence < least

def lowered (limit : Limit) (precedence : Nat) : Limit := some (limit.elim precedence (min precedence))

theorem exceeds_none (precedence : Nat) : Exceeds none precedence := fun _ member => nomatch member

theorem exceeds_some (limit precedence : Nat) : Exceeds (some limit) precedence ↔ precedence < limit := by
  simp [Exceeds]

theorem allows_some (limit precedence : Nat) : Allows (some limit) precedence ↔ precedence ≤ limit := by
  simp [Allows]

theorem allows_lowered (limit : Limit) (precedence other : Nat) :
    (limit.lowered precedence).Allows other ↔ other ≤ precedence ∧ limit.Allows other := by
  cases limit with
  | none => simp [lowered, Allows]
  | some least => exact (allows_some _ other).trans (Nat.le_min.trans (and_congr_right' (allows_some least other).symm))

end Limit

namespace Node

-- The least minimum with which an expression at the right edge was read.
def edge : Node → Limit
  | binary _ _ op _ right => right.edge.lowered op.precedence
  | unary _ _ _ operand | await _ _ operand => operand.edge.lowered Precedence.unary
  | assign .. => some 0
  | _ => none

-- How tightly the operator at the top binds, if the expression is headed by one to the right of its operand.
def grip : Node → Limit
  | binary _ _ op _ _ => some op.precedence
  | call .. | index .. | access .. => some Precedence.postfixed
  | assign .. => some Precedence.assignment
  | _ => none

inductive Expression : Node → Prop where
  | number (value : Float) (readable : ∃ text, Number.read? text = some value) : Expression (.number value)
  | text (value : String) : Expression (.text value)
  | reference (name : String) (position : Position) (free : name ∉ keywords) : Expression (.reference name position)
  | binary (position : Position) (op : BinaryOp) (left right : Node) (first : Expression left)
      (second : Expression right) (held : left.edge.Allows op.precedence) (tighter : right.grip.Exceeds op.precedence) :
      Expression (.binary "binary" position op left right)
  | unary (position : Position) (op : UnaryOp) (operand : Node) (inner : Expression operand)
      (tighter : operand.grip.Exceeds Precedence.unary) : Expression (.unary "unary" position op operand)
  | await (position : Position) (operand : Node) (inner : Expression operand)
      (tighter : operand.grip.Exceeds Precedence.unary) : Expression (.await "await" position operand)
  | group (position : Position) (inner : Node) (content : Expression inner) :
      Expression (.group "group" position inner)
  | array (position : Position) (items : List Node) (each : ∀ item ∈ items, Expression item) :
      Expression (.array "array" position items)
  | call (position : Position) (callee : Node) (arguments : List Node) (first : Expression callee)
      (each : ∀ argument ∈ arguments, Expression argument) (held : callee.edge.Allows Precedence.postfixed) :
      Expression (.call "call" position callee arguments)
  | index (position : Position) (object place : Node) (first : Expression object) (second : Expression place)
      (held : object.edge.Allows Precedence.postfixed) : Expression (.index "index" position object place)
  | access (position : Position) (object : Node) (member : String) (first : Expression object)
      (free : member ∉ keywords) (held : object.edge.Allows Precedence.postfixed) :
      Expression (.access "access" position object member)
  | assign (position : Position) (target : String) (value : Node) (free : target ∉ keywords)
      (second : Expression value) : Expression (.assign "assign" position target value)

inductive Statement : Node → Prop where
  | expression (node : Node) (expression : Expression node) : Statement node
  | function (position : Position) (name : String) (parameters : List String) (isAsync : Bool) (body : List Node)
      (free : name ∉ keywords) (freeParameters : ∀ parameter ∈ parameters, parameter ∉ keywords)
      (distinct : parameters.Nodup) (lines : ∀ line ∈ body, Statement line) :
      Statement (.function "fn" position name parameters isAsync body)
  | giveBack (position : Position) (value : Option Node) (given : ∀ node ∈ value, Expression node) :
      Statement (.giveBack "return" position value)
  | branch (position : Position) (condition : Node) (whenTrue : List Node) (whenFalse : Option (List Node))
      (question : Expression condition) (lines : ∀ line ∈ whenTrue, Statement line)
      (otherLines : ∀ body ∈ whenFalse, ∀ line ∈ body, Statement line) :
      Statement (.branch "if" position condition whenTrue whenFalse)
  | loop (position : Position) (condition : Node) (body : List Node) (question : Expression condition)
      (lines : ∀ line ∈ body, Statement line) : Statement (.loop "while" position condition body)
  | block (position : Position) (body : List Node) (lines : ∀ line ∈ body, Statement line) :
      Statement (.block "block" position body)

end Node

namespace Literal

def escapeChar (c : Char) : List Char := if c = '\x5c' ∨ c = '"' then ['\x5c', c] else [c]

def quote (text : String) : String := String.ofList ('"' :: text.toList.flatMap escapeChar ++ ['"'])

theorem unescape_quote (text : String) : unescape (quote text) = text := unescape_enclosed '"' List.mem_cons_self text

end Literal

noncomputable def Number.numeral (x : Float) : String := Classical.epsilon fun text => read? text = some x

theorem Number.read_numeral (x : Float) (readable : ∃ text, read? text = some x) : read? (numeral x) = some x :=
  Classical.epsilon_spec readable

def UnaryOp.symbol : UnaryOp → String
  | negate => "-"
  | not => "!"

namespace Token

def symbol (text : String) : Token := ⟨.symbol, text, default⟩
def bracket (text : String) : Token := ⟨.bracket, text, default⟩
def word (text : String) : Token := ⟨.word, text, default⟩
def separator : Token := ⟨.separator, ";", default⟩
def finish : Token := ⟨.finish, "", default⟩

-- Names with commas between them.
def names : List String → List Token
  | [] => []
  | [name] => [word name]
  | name :: rest => word name :: symbol "," :: names rest

end Token

namespace Node

mutual

-- The tree without the places it was read at.
def unplaced : Node → Node
  | number value => number value
  | text value => text value
  | void => void
  | reference name _ => reference name default
  | binary label _ op left right => binary label default op left.unplaced right.unplaced
  | unary label _ op operand => unary label default op operand.unplaced
  | group label _ inner => group label default inner.unplaced
  | call label _ callee arguments => call label default callee.unplaced (unplacedAll arguments)
  | assign label _ target value => assign label default target value.unplaced
  | access label _ object member => access label default object.unplaced member
  | array label _ items => array label default (unplacedAll items)
  | index label _ object place => index label default object.unplaced place.unplaced
  | await label _ operand => await label default operand.unplaced
  | function label _ name parameters isAsync body => function label default name parameters isAsync (unplacedAll body)
  | giveBack label _ none => giveBack label default none
  | giveBack label _ (some value) => giveBack label default (some value.unplaced)
  | branch label _ condition whenTrue none => branch label default condition.unplaced (unplacedAll whenTrue) none
  | branch label _ condition whenTrue (some whenFalse) =>
    branch label default condition.unplaced (unplacedAll whenTrue) (some (unplacedAll whenFalse))
  | loop label _ condition body => loop label default condition.unplaced (unplacedAll body)
  | block label _ body => block label default (unplacedAll body)

def unplacedAll : List Node → List Node
  | [] => []
  | node :: rest => node.unplaced :: unplacedAll rest

end

mutual

noncomputable def spelling : Node → List Token
  | number value => [⟨.number, Number.numeral value, default⟩]
  | text value => [⟨.text, Literal.quote value, default⟩]
  | void => []
  | reference name _ => [.word name]
  | binary _ _ op left right => left.spelling ++ .symbol op.symbol :: right.spelling
  | unary _ _ op operand => .symbol op.symbol :: operand.spelling
  | group _ _ inner => .bracket "(" :: inner.spelling ++ [.bracket ")"]
  | call _ _ callee arguments => callee.spelling ++ .bracket "(" :: itemSpelling arguments ++ [.bracket ")"]
  | assign _ _ target value => .word target :: .symbol "=" :: value.spelling
  | access _ _ object member => object.spelling ++ [.symbol ".", .word member]
  | array _ _ items => .bracket "[" :: itemSpelling items ++ [.bracket "]"]
  | index _ _ object place => object.spelling ++ .bracket "[" :: place.spelling ++ [.bracket "]"]
  | await _ _ operand => .word "await" :: operand.spelling
  | function _ _ name parameters isAsync body =>
    (if isAsync then [.word "async"] else []) ++ .word "fn" :: .word name :: .bracket "(" :: Token.names parameters ++
      .bracket ")" :: .bracket "\x7b" :: lineSpelling body ++ [.bracket "\x7d"]
  | giveBack _ _ none => [.word "return"]
  | giveBack _ _ (some value) => .word "return" :: value.spelling
  | branch _ _ condition whenTrue none =>
    .word "if" :: .bracket "(" :: condition.spelling ++ .bracket ")" :: .bracket "\x7b" :: lineSpelling whenTrue ++
      [.bracket "\x7d"]
  | branch _ _ condition whenTrue (some whenFalse) =>
    .word "if" :: .bracket "(" :: condition.spelling ++ .bracket ")" :: .bracket "\x7b" :: lineSpelling whenTrue ++
      .bracket "\x7d" :: .word "else" :: .bracket "\x7b" :: lineSpelling whenFalse ++ [.bracket "\x7d"]
  | loop _ _ condition body =>
    .word "while" :: .bracket "(" :: condition.spelling ++ .bracket ")" :: .bracket "\x7b" :: lineSpelling body ++
      [.bracket "\x7d"]
  | block _ _ body => .bracket "\x7b" :: lineSpelling body ++ [.bracket "\x7d"]

-- Expressions with commas between them.
noncomputable def itemSpelling : List Node → List Token
  | [] => []
  | item :: rest => item.spelling ++ (if rest.isEmpty then [] else .symbol "," :: itemSpelling rest)

-- Statements, a separator after each.
noncomputable def lineSpelling : List Node → List Token
  | [] => []
  | line :: rest => line.spelling ++ .separator :: lineSpelling rest

end

attribute [simp] unplaced unplacedAll spelling itemSpelling lineSpelling

-- The tokens of a program.
noncomputable def print (nodes : List Node) : List Token := lineSpelling nodes ++ [.finish]

theorem unplaced_all (nodes : List Node) : unplacedAll nodes = nodes.map unplaced := by
  induction nodes with
  | nil => simp only [unplacedAll, List.map_nil]
  | cons node rest ih => simp only [unplacedAll, List.map_cons, ih]

end Node

namespace Cursor

-- The place with a token put in front of it.
def put (token : Token) (cursor : Cursor) : Cursor := ⟨token, cursor.current :: cursor.rest⟩

def before (cursor : Cursor) (tokens : List Token) : Cursor := tokens.foldr put cursor

theorem before_nil (cursor : Cursor) : cursor.before [] = cursor := rfl

theorem before_cons (cursor : Cursor) (token : Token) (tokens : List Token) :
    cursor.before (token :: tokens) = (cursor.before tokens).put token := rfl

theorem before_append (cursor : Cursor) (first second : List Token) :
    cursor.before (first ++ second) = (cursor.before second).before first := List.foldr_append

theorem put_current (token : Token) (cursor : Cursor) : (cursor.put token).current = token := rfl

theorem advance_put (token : Token) (cursor : Cursor) (further : token.kind ≠ .finish) :
    (cursor.put token).advance = cursor := if_neg further

theorem skip_none (cursor : Cursor) (shown : cursor.current.kind ≠ .separator) : cursor.skipSeparators = cursor := by
  obtain ⟨current, rest⟩ := cursor
  cases rest with
  | nil => rfl
  | cons next rest => exact if_neg shown

theorem skip_put (token : Token) (cursor : Cursor) (between : token.kind = .separator) :
    (cursor.put token).skipSeparators = cursor.skipSeparators := by
  simp only [skipSeparators, put, skipFrom, if_pos between]

theorem of_tokens_before (tokens : List Token) (last : Token) :
    ofTokens? (tokens ++ [last]) = some ((⟨last, []⟩ : Cursor).before tokens) := by
  induction tokens with
  | nil => rfl
  | cons token tokens ih =>
    cases tokens with
    | nil => rfl
    | cons second rest =>
      have same : ⟨second, rest ++ [last]⟩ = (⟨last, []⟩ : Cursor).before (second :: rest) := Option.some.inj ih
      rw [before_cons, ← same]
      rfl

end Cursor

end CoopScript
