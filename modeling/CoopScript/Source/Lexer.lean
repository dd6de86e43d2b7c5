import CoopScript.Diagnostic.Basic
import CoopScript.Source.LexRule
import CoopScript.Text.Blank

set_option autoImplicit false
namespace CoopScript

structure Match where
  rule : LexRule
  length : Nat

namespace Match

def better (best : Option Match) (rule : LexRule) : Option Nat → Option Match
  | none => best
  | some length =>
    match best with
    | none => if length = 0 then none else some ⟨rule, length⟩
    | some found => if found.length < length then some ⟨rule, length⟩ else some found

-- The longest match of `rules` after `best`. A fault of any rule ends the search.
def longest (input : List Char) : Option Match → List LexRule → Except Cause (Option Match)
  | best, [] => .ok best
  | best, rule :: rest =>
    match rule.pattern.recognize input with
    | .error cause => .error cause
    | .ok length => longest input (better best rule length) rest

end Match

namespace Token

-- The tokens from a place on; the next `skip` characters belong to a match already made.
def readFrom (rules : List LexRule) :
    Nat → Position → List Char → Except Diagnostic (List Token)
  | _, place, [] => .ok [⟨.finish, "", place⟩]
  | skip + 1, place, c :: rest => readFrom rules skip (place.after c) rest
  | 0, place, c :: rest =>
    if Text.isBlank c then readFrom rules 0 (place.after c) rest
    else
      match Match.longest (c :: rest) none rules with
      | .error cause => .error (.located cause place)
      | .ok none => .error (.located (.unexpectedCharacter c) place)
      | .ok (some found) =>
        let later := readFrom rules (found.length - 1) (place.after c) rest
        if found.rule.kind.isTrivia then later
        else
          let text := String.ofList (c :: rest.take (found.length - 1))
          later.map fun tokens => ⟨found.rule.kind, text, place⟩ :: tokens

end Token

-- The tokens of a source, comments left out and an end mark put after the last one.
def tokenize (rules : List LexRule) (source : String) (file : Option String) :
    Except Diagnostic (List Token) :=
  Token.readFrom rules 0 (.start file) source.toList

end CoopScript
