import CoopScript.Diagnostic.Cause
import CoopScript.Source.Position

set_option autoImplicit false
namespace CoopScript

inductive Note where
  | expectedClosing (bracket : String)
  | whileExecuting (what : String) (position : Option Position)
  | remark (text : String)

def Note.text : Note → String
  | expectedClosing bracket => "expected `" ++ bracket ++ "`"
  | whileExecuting what none => "while executing " ++ what
  | whileExecuting what (some position) => "while executing " ++ what ++ " at " ++ position.text
  | remark text => text

structure Diagnostic where
  cause : Cause
  position : Option Position
  notes : List Note

namespace Diagnostic

def of (cause : Cause) : Diagnostic := ⟨cause, none, []⟩

def kind (diagnostic : Diagnostic) : Kind := diagnostic.cause.kind

def message (diagnostic : Diagnostic) : String := diagnostic.cause.message

def withPosition (diagnostic : Diagnostic) (position : Position) : Diagnostic :=
  { diagnostic with position := some position }

def located (cause : Cause) (position : Position) : Diagnostic := (of cause).withPosition position

def orPosition (diagnostic : Diagnostic) (position : Position) : Diagnostic :=
  { diagnostic with position := some (diagnostic.position.getD position) }

def withNote (diagnostic : Diagnostic) (note : Note) : Diagnostic :=
  { diagnostic with notes := diagnostic.notes ++ [note] }

def text (diagnostic : Diagnostic) : String :=
  let heading := diagnostic.kind.label ++ ": " ++ diagnostic.message
  let place := match diagnostic.position with
    | some position => " at " ++ position.text
    | none => ""
  let notes := diagnostic.notes.map fun note => "  note: " ++ note.text ++ "\n"
  heading ++ place ++ if notes.isEmpty then "" else "\n" ++ String.join notes

end Diagnostic

inductive Failure where
  | fault (diagnostic : Diagnostic)
  | missingFile

namespace Failure

def of (cause : Cause) : Failure := .fault (.of cause)

def located (cause : Cause) (position : Position) : Failure :=
  .fault (.located cause position)

def orPosition : Failure → Option Position → Failure
  | .fault diagnostic, some position => .fault (diagnostic.orPosition position)
  | failure, _ => failure

def withNote : Failure → Note → Failure
  | .fault diagnostic, note => .fault (diagnostic.withNote note)
  | .missingFile, _ => .missingFile

def text : Failure → String
  | .fault diagnostic => diagnostic.text
  | .missingFile => "I/O error: No such file or directory (os error 2)"

end Failure
end CoopScript
