import CoopScript.Repl
import CoopScript.Text.Backspace

set_option autoImplicit false
namespace CoopScript.CommandLine

inductive Command where
  | run (script : String)
  | eval (source : String)
  | repl
deriving DecidableEq

structure Request where
  command : Option Command
  config : Config

structure Result where
  code : UInt32
  output : String
  errors : String

def ampleFuel : Nat := 1000000000

def count? (text : String) : Option Nat :=
  let digits := match text.toList with
    | '+' :: rest => rest
    | all => all
  if digits.isEmpty || !digits.all Char.isDigit then none else some (Number.digitsValue digits)

def setting? (config : Config) (name value : String) : Option Config :=
  match name, count? value with
  | "--idle-ticks", some limit => some { config with idleLimit := limit }
  | "--workers", some workers => some { config with workers := workers }
  | _, _ => none

def command? : List String → Option (Option Command)
  | [] => some none
  | ["repl"] => some (some .repl)
  | ["run", script] => some (some (.run script))
  | ["eval", source] => some (some (.eval source))
  | _ => none

def request? (words : List String) (config : Config) : Option Request :=
  (command? words).map fun command => ⟨command, config⟩

def isOption (word : String) : Bool :=
  match word.toList with
  | '-' :: _ :: _ => true
  | _ => false

-- Options may stand anywhere and take the next word or what follows an equals sign; two dashes end them.
def parse : List String → List String → Config → Option Request
  | [], words, config => request? words config
  | "--" :: rest, words, config => request? (words ++ rest) config
  | [word], words, config =>
    if isOption word then
      let (name, value) := (word.toList.takeWhile (· ≠ '='), word.toList.dropWhile (· ≠ '='))
      (setting? config (String.ofList name) (String.ofList (value.drop 1))).bind (request? words)
    else request? (words ++ [word]) config
  | word :: next :: rest, words, config =>
    if isOption word then
      let (name, value) := (word.toList.takeWhile (· ≠ '='), word.toList.dropWhile (· ≠ '='))
      match value with
      | [] => (setting? config word next).bind (parse rest words)
      | _ :: value =>
        (setting? config (String.ofList name) (String.ofList value)).bind (parse (next :: rest) words)
    else parse (next :: rest) (words ++ [word]) config

def read? (arguments : List String) : Option Request := parse arguments [] .standard

def joinLines (lines : Array String) : String := String.join (lines.toList.map (· ++ "\n"))

def failed (failure : Failure) (machine : Machine) : Result :=
  ⟨1, joinLines machine.output, failure.text ++ "\n"⟩

def exhausted : Result := ⟨2, "", "out of fuel\n"⟩

def run (edited : List Char → List Char) (request : Request) (file? : String → Option String) (input : List String) : Result :=
  let rules := RuleSet.standard
  let engine := rules.engine ampleFuel
  let machine := Machine.start request.config
  match request.command.getD .repl with
  | .run script =>
    match rules.evalFile ampleFuel script (file? script) machine with
    | .done _ machine => ⟨0, joinLines machine.output, ""⟩
    | .failed failure machine => failed failure machine
    | .outOfFuel => exhausted
  | .eval source =>
    match Repl.evalLine engine source machine with
    | .done value machine => ⟨0, joinLines (machine.output ++ value.toArray), ""⟩
    | .failed failure machine => failed failure machine
    | .outOfFuel => exhausted
  | .repl =>
    let shown := Repl.runLines edited engine input ⟨#[], #[]⟩ machine
    ⟨0, joinLines shown.output, joinLines shown.errors⟩

def execute : Request → (String → Option String) → List String → Result := run Text.edited

end CoopScript.CommandLine
