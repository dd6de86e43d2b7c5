import CoopScript.Proofs.Fault.Session
import CoopScript.Proofs.Layout.Grammar
import CoopScript.Proofs.Lens.Ends
import CoopScript.Proofs.Source.Look

set_option autoImplicit false
namespace CoopScript

open Lens (placeless)

namespace Token

theorem unplaced_looks (tokens others : List Token) (same : tokens.map look = others.map look) :
    tokens.map unplaced = others.map unplaced := by
  have seen (tokens : List Token) : tokens.map unplaced = (tokens.map look).map fun seen => ⟨seen.1, seen.2, default⟩ := by
    rw [List.map_map]
    rfl
  rw [seen, seen, same]

end Token

theorem Sequel.ending_cursor (exact : Prop) (cursor : Cursor) :
    (Sequel.ending exact).cursor cursor = ⟨cursor.current.unplaced, cursor.rest.map Token.unplaced⟩ := by
  simp [Sequel.cursor, Sequel.tokens, Sequel.first, Sequel.later, Sequel.ending, List.map_eq_flatMap]

theorem Cursor.of_tokens_ends (front : List Token) (last : Token) (ended : last.kind = .finish)
    (inside : ∀ token ∈ front, token.kind ≠ .finish) :
    ∃ cursor : Cursor, ofTokens? (front ++ [last]) = some cursor ∧ cursor.Ends ∧ cursor.rest.length = front.length ∧
      cursor.current :: cursor.rest = front ++ [last] := by
  cases front with
  | nil => exact ⟨⟨last, []⟩, rfl, ended, rfl, rfl⟩
  | cons token rest =>
    have ends (front : List Token) (inside : ∀ token ∈ front, token.kind ≠ .finish) (current : Token)
        (other : current.kind ≠ .finish) : endsFrom current (front ++ [last]) := by
      induction front generalizing current with
      | nil => exact ⟨other, ended⟩
      | cons next rest ih =>
        obtain ⟨here, later⟩ := List.forall_mem_cons.mp inside
        exact ⟨other, ih later next here⟩
    obtain ⟨here, later⟩ := List.forall_mem_cons.mp inside
    exact ⟨⟨token, rest ++ [last]⟩, rfl, ends rest later token here, by simp, rfl⟩

theorem Grammar.parse_echoes (front : List Token) (last : Token) (ended : last.kind = .finish)
    (inside : ∀ token ∈ front, token.kind ≠ .finish) :
    (standard.parse (front ++ [last])).Echoes (.ending True) placeless.lines front.length
      (standard.parse ((front ++ [last]).map Token.unplaced)) := by
  obtain ⟨cursor, started, ends, length, same⟩ := Cursor.of_tokens_ends front last ended inside
  have restarted : Cursor.ofTokens? ((front ++ [last]).map Token.unplaced) = some ((Sequel.ending True).cursor cursor) := by
    rw [← same, Sequel.ending_cursor]
    rfl
  have program := Reader.program_echoes (.ending True) _ _
    (Reader.of_fuel_echoes (.ending True) (allowance (front ++ [last])) _ (Nat.le_refl _) fun _ => rfl) rfl cursor ends
  have steps : allowance ((front ++ [last]).map Token.unplaced) = allowance (front ++ [last]) := by simp [allowance]
  unfold parse
  rw [started, restarted, steps, ← length]
  exact program

namespace RuleSet

-- What a text spells, or what is wrong with it, without places.
def unplaced : Except Diagnostic (List Node) → Except Diagnostic (List Node)
  | .ok lines => .ok (placeless.lines lines)
  | .error diagnostic => .error diagnostic.unplaced

theorem parse_unplaced (source : String) (file : Option String) (tokens : List Token)
    (read : tokenize LexRule.standard source file = .ok tokens) :
    (standard.parse source file).map unplaced = match Grammar.standard.parse (tokens.map Token.unplaced) with
      | .ok lines _ => some (.ok lines)
      | .failed diagnostic => some (.error diagnostic)
      | .stalled => none := by
  obtain ⟨front, last, rfl, ended, inside⟩ := Token.read_finish source file tokens read
  have echoes := Grammar.parse_echoes front last (congrArg Prod.fst ended) inside
  have same : standard.parse source file = match Grammar.standard.parse (front ++ [last]) with
      | .ok lines _ => some (.ok lines)
      | .failed diagnostic => some (.error diagnostic)
      | .stalled => none := by
    unfold parse
    rw [show standard.lexRules = LexRule.standard from rfl, read]
    rfl
  rw [same]
  cases parsed : Grammar.standard.parse (front ++ [last]) with
  | ok lines rest =>
    rw [parsed] at echoes
    rw [echoes.1]
    rfl
  | failed | stalled =>
    rw [parsed] at echoes
    rw [echoes trivial]
    rfl

theorem parse_alike (source other : String) (file twin : Option String) (tokens others : List Token)
    (read : tokenize LexRule.standard source file = .ok tokens)
    (reread : tokenize LexRule.standard other twin = .ok others) (same : tokens.map Token.look = others.map Token.look) :
    (standard.parse source file).map unplaced = (standard.parse other twin).map unplaced := by
  rw [parse_unplaced source file tokens read, parse_unplaced other twin others reread,
    Token.unplaced_looks tokens others same]

end RuleSet
def Machine.rootBindings (machine : Machine) : Option Bindings :=
  (machine.frames.frame? Arena.root).map Frame.bindings

-- Machines that differ in the places inside of functions only.
structure Machine.Alike (machine other : Machine) : Prop where
  output : machine.output = other.output
  bindings : machine.rootBindings.map placeless.bindings = other.rootBindings.map placeless.bindings
  whole : placeless.machine machine = placeless.machine other

/-- What ends alike up to places: with a value, with a failure of the same cause and the same notes, or not at all. -/
inductive Outcome.Alike : Outcome Value → Outcome Value → Prop
  | done (value other : Value) (machine twin : Machine) (values : placeless.value value = placeless.value other)
      (machines : machine.Alike twin) : Alike (.done value machine) (.done other twin)
  | failed (failure other : Failure) (machine twin : Machine)
      (causes : ∀ cause, failure.HasCause cause ↔ other.HasCause cause)
      (places : placeless.failure failure = placeless.failure other) (machines : machine.Alike twin) :
      Alike (.failed failure machine) (.failed other twin)
  | outOfFuel : Alike .outOfFuel .outOfFuel

namespace Machine

theorem bindings_placeless (machine : Machine) :
    (placeless.machine machine).rootBindings = machine.rootBindings.map placeless.bindings := by
  show ((placeless.arena machine.frames).frame? Arena.root).map Frame.bindings = _
  rw [placeless.frame_arena, rootBindings, Option.map_map, Option.map_map]
  rfl

theorem alike_of_whole (machine other : Machine) (whole : placeless.machine machine = placeless.machine other) :
    machine.Alike other := by
  refine ⟨?_, ?_, whole⟩
  · have same := congrArg Machine.output whole
    exact same
  · rw [← bindings_placeless, ← bindings_placeless, whole]

end Machine

namespace Outcome

theorem alike_of_seen (good : Value → Prop) (outcome twin unplaced : Outcome Value)
    (first : outcome.Seen placeless 0 0 placeless.value good unplaced)
    (second : twin.Seen placeless 0 0 placeless.value good unplaced) : outcome.Alike twin := by
  cases first with
  | done value after =>
    generalize seen : Outcome.done (placeless.value value) ((placeless.machine after).pass 0) = unplaced at second
    cases second with
    | done other machine =>
      injection seen with values machines
      exact .done value other after machine values (after.alike_of_whole machine machines)
    | escaped _ _ bound bounded => cases bounded
    | short _ inexact => exact absurd trivial inexact
    | failed | outOfFuel => cases seen
  | failed failure after =>
    generalize seen : Outcome.failed (placeless.failure failure) ((placeless.machine after).pass 0) = unplaced at second
    cases second with
    | failed other machine =>
      injection seen with failures machines
      have causes (cause : Cause) : failure.HasCause cause ↔ other.HasCause cause := by
        rw [← placeless.cause_failure failure, ← placeless.cause_failure other, failures]
      exact .failed failure other after machine causes failures (after.alike_of_whole machine machines)
    | escaped _ _ bound bounded => cases bounded
    | short _ inexact => exact absurd trivial inexact
    | done | outOfFuel => cases seen
  | outOfFuel =>
    generalize seen : Outcome.outOfFuel = unplaced at second
    cases second with
    | outOfFuel => exact .outOfFuel
    | escaped _ _ bound bounded => cases bounded
    | short _ inexact => exact absurd trivial inexact
    | done | failed => cases seen
  | short _ inexact => exact absurd trivial inexact
  | escaped _ _ bound bounded => cases bounded

end Outcome

theorem RuleSet.eval_alike (machine : Machine) (fits : machine.Fits none) (fuel : Nat) (lines others : List Node)
    (same : placeless.lines lines = placeless.lines others) :
    ((standard.engine fuel).evalProgram lines machine).Alike ((standard.engine fuel).evalProgram others machine) := by
  have all : ∀ bound : Option Bound, bound = none → bound = none := fun _ none => none
  have seen (lines : List Node) := (Engine.eval_program_through
    (RuleSet.through_engine placeless fuel fuel (Nat.le_refl _) fun _ => rfl) rfl lines all).seen rfl rfl machine fits fits
  exact Outcome.alike_of_seen _ _ _ _ (seen lines) (same ▸ seen others)

-- Loaded from texts of the same tokens, programs do the same, or are refused alike.
theorem RuleSet.load_alike (machine : Machine) (fits : machine.Fits none) (fuel : Nat) (source other : String)
    (file twin : Option String) (same : (standard.parse source file).map unplaced = (standard.parse other twin).map unplaced) :
    ((standard.load source file >>= (standard.engine fuel).evalProgram) machine).Alike
      ((standard.load other twin >>= (standard.engine fuel).evalProgram) machine) := by
  unfold load
  rcases parsed : standard.parse source file with _ | ⟨fault | lines⟩ <;>
    rcases reparsed : standard.parse other twin with _ | ⟨refusal | others⟩ <;>
    rw [parsed, reparsed] at same <;> try cases same
  · exact .outOfFuel
  · injection same with same
    injection same with same
    have failures : placeless.failure (.fault fault) = placeless.failure (.fault refusal) := congrArg Failure.fault same
    refine .failed _ _ machine machine (fun cause => ?_) failures (machine.alike_of_whole machine rfl)
    rw [← placeless.cause_failure, failures, placeless.cause_failure]
  · injection same with same
    injection same with same
    exact eval_alike machine fits fuel lines others same

namespace Script

-- The tokens that a script is cut into.
def Reads : Script → List Token → Prop
  | text source, tokens => tokenize LexRule.standard source none = .ok tokens
  | file name (some source), tokens => tokenize LexRule.standard source (some name) = .ok tokens
  | file _ none, _ => False

theorem reads_loaded (script : Script) (tokens : List Token) (reads : script.Reads tokens) : ∃ source file,
    tokenize LexRule.standard source file = .ok tokens ∧ ∀ fuel, script.run (fuel + 1) =
      (RuleSet.standard.load source file >>= (RuleSet.standard.engine (fuel + 1)).evalProgram) := by
  cases script with
  | text source => exact ⟨source, none, reads, fun _ => rfl⟩
  | file name content =>
    cases content with
    | none => exact reads.elim
    | some source => exact ⟨source, some name, reads, fun _ => rfl⟩

/-- Where the tokens of a script stand, what there is between them and what its file is called is not seen in what comes of
it, apart from the places that it tells and that its functions keep. -/
theorem layout_unseen (config : Config) (stage : Stage) (reached : Reachable config stage) (first second : Script)
    (tokens others : List Token) (reads : first.Reads tokens) (rereads : second.Reads others)
    (same : tokens.map Token.look = others.map Token.look) (fuel : Nat) :
    (first.run (fuel + 1) stage.machine).Alike (second.run (fuel + 1) stage.machine) := by
  obtain ⟨source, file, read, runs⟩ := first.reads_loaded tokens reads
  obtain ⟨other, twin, reread, reruns⟩ := second.reads_loaded others rereads
  have parsed := RuleSet.parse_alike source other file twin tokens others read reread same
  rw [runs, reruns]
  exact RuleSet.load_alike stage.machine (reachable_sound config stage reached).fits (fuel + 1) source other file twin parsed

-- A file with a comment and lines of its own, and a text on one line.
theorem layout_unseen_file : ∃ tokens others, ∃ first second : Script,
    first = .file "one.cs" (some "// One.\nfn one() \x7b\n  return 1\n\x7d\none") ∧
      second = .text "fn one ( ) \x7breturn 1\x7done" ∧ first.Reads tokens ∧ second.Reads others ∧
      tokens.map Token.look = others.map Token.look ∧
      (first.run 20 (Machine.start .standard)).Alike (second.run 20 (Machine.start .standard)) := by
  let source := "// One.\nfn one() \x7b\n  return 1\n\x7d\none"
  let other := "fn one ( ) \x7breturn 1\x7done"
  have looks : ((tokenize LexRule.standard source (some "one.cs")).toOption.map fun tokens => tokens.map Token.look) =
      ((tokenize LexRule.standard other none).toOption.map fun tokens => tokens.map Token.look) ∧
      (tokenize LexRule.standard source (some "one.cs")).toOption.isSome = true := by
    decide +kernel
  cases read : tokenize LexRule.standard source (some "one.cs") with
  | error => simp [read, Except.toOption] at looks
  | ok tokens =>
    cases reread : tokenize LexRule.standard other none with
    | error => simp [read, reread, Except.toOption] at looks
    | ok others =>
      rw [read, reread] at looks
      have same : tokens.map Token.look = others.map Token.look := Option.some.inj looks.1
      exact ⟨tokens, others, .file "one.cs" (some source), .text other, rfl, rfl, read, reread, same,
        layout_unseen .standard (.start .standard) .start (.file "one.cs" (some source)) (.text other) tokens others read reread same 19⟩

end Script
end CoopScript
