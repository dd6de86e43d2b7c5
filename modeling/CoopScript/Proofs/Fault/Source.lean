import CoopScript.Proofs.Grammar.Image
import CoopScript.Proofs.Source.Look
import CoopScript.Rule.Standard
import Mathlib.Data.List.TakeWhile

set_option autoImplicit false
namespace CoopScript

-- Faults that would be the interpreter's own, whatever the program.
def Cause.isInternal : Cause → Bool
  | noStatementRule _ | noExpressionRule _ | unexpectedShape _ | statementAsValue _ | invalidNumber _ | notAnOperator _
  | staleFrame _ | unknownTask _ | settledTwice _ | noCallHook _ | noBody | badText .. | badTruth .. => true
  | _ => false

namespace Number

theorem magnitude_read (negative : Bool) (whole fraction rest : List Char) (digits : ∀ c ∈ whole, c.isDigit = true)
    (fractionDigits : ∀ c ∈ fraction, c.isDigit = true) (known : whole ≠ [])
    (shape : rest = [] ∨ rest = '.' :: fraction) : (magnitude? negative (whole ++ rest)).isSome = true := by
  have stops : rest.takeWhile Char.isDigit = [] ∧ rest.dropWhile Char.isDigit = rest := by
    rcases shape with rfl | rfl
    · exact ⟨rfl, rfl⟩
    · exact ⟨rfl, rfl⟩
  have taken : (whole ++ rest).takeWhile Char.isDigit = whole := by
    rw [List.takeWhile_append_of_pos digits, stops.1, List.append_nil]
  have dropped : (whole ++ rest).dropWhile Char.isDigit = rest := by
    rw [List.dropWhile_append_of_pos digits, stops.2]
  have all : fraction.takeWhile Char.isDigit = fraction ∧ fraction.dropWhile Char.isDigit = [] :=
    ⟨List.takeWhile_eq_self_iff.mpr fractionDigits, List.dropWhile_eq_nil_iff.mpr fractionDigits⟩
  unfold magnitude?
  simp only [taken, dropped]
  split
  · rfl
  · split
    · rfl
    · rcases shape with rfl | rfl
      · simp [known, exponent?]
      · simp [known, all, exponent?]

theorem read_digits (whole fraction rest : List Char) (digits : ∀ c ∈ whole, c.isDigit = true)
    (fractionDigits : ∀ c ∈ fraction, c.isDigit = true) (known : whole ≠ [])
    (shape : rest = [] ∨ rest = '.' :: fraction) : (read? (String.ofList (whole ++ rest))).isSome = true := by
  have read := magnitude_read false whole fraction rest digits fractionDigits known shape
  obtain ⟨first, more, rfl⟩ := List.exists_cons_of_ne_nil known
  have digit := digits first List.mem_cons_self
  unfold read?
  rw [String.toList_ofList, List.cons_append]
  split
  next signed =>
    cases signed
    cases digit
  next signed =>
    cases signed
    cases digit
  next => exact read

end Number

namespace Recognizer

theorem number_read (input : List Char) (length : Nat) (taken : number input = .ok (some length)) :
    (Number.read? (String.ofList (input.take length))).isSome = true := by
  have digits : ∀ text : List Char, ∀ c ∈ text.takeWhile Char.isDigit, c.isDigit = true :=
    fun text c member => List.mem_takeWhile_imp member
  have leading : ∀ text : List Char, text.take (digitsLength text) = text.takeWhile Char.isDigit :=
    fun text => (List.prefix_iff_eq_take.mp (List.takeWhile_prefix Char.isDigit)).symm
  unfold number at taken
  by_cases none : digitsLength input = 0
  · simp only [none, if_true] at taken
    cases taken
  have known : input.takeWhile Char.isDigit ≠ [] := fun empty => none (by simp [digitsLength, empty])
  have short : (Number.read? (String.ofList (input.take (digitsLength input)))).isSome = true := by
    rw [leading, ← List.append_nil (input.takeWhile Char.isDigit)]
    exact Number.read_digits _ [] [] (digits input) (List.forall_mem_nil _) known (.inl rfl)
  simp only [none, if_false] at taken
  split at taken
  next rest pointed =>
    split at taken
    next =>
      cases taken
      exact short
    next =>
      cases taken
      have long : input.take (digitsLength input + 1 + digitsLength rest) =
          input.takeWhile Char.isDigit ++ '.' :: rest.takeWhile Char.isDigit := by
        rw [Nat.add_assoc, List.take_add, leading input, pointed, Nat.add_comm 1, List.take_succ_cons, leading rest]
      rw [long]
      exact Number.read_digits _ _ _ (digits input) (digits rest) known (.inr rfl)
  next =>
    cases taken
    exact short

end Recognizer

def Token.Readable (token : Token) : Prop := token.kind = .number → (Number.read? token.text).isSome = true

namespace LexRule
variable (rule : LexRule) (member : rule ∈ standard) (input : List Char)
include member

theorem standard_fault (cause : Cause) (refused : rule.pattern.recognize input = .error cause) :
    cause = .unterminatedComment ∨ cause = .unterminatedText := by
  simp only [standard, List.mem_cons, List.not_mem_nil, or_false] at member
  rcases member with rfl | rfl | rfl | rfl | rfl | rfl | rfl | rfl
  · simp only [Pattern.recognize, Recognizer.comment] at refused
    grind
  · simp only [Pattern.recognize, Recognizer.number] at refused
    grind
  · simp only [Pattern.recognize, Recognizer.word] at refused
    grind
  · simp only [Pattern.recognize, Recognizer.text] at refused
    grind
  all_goals cases refused

theorem standard_number (numeric : rule.kind = .number) : rule.pattern = .custom Recognizer.number := by
  simp only [standard, List.mem_cons, List.not_mem_nil, or_false] at member
  rcases member with rfl | rfl | rfl | rfl | rfl | rfl | rfl | rfl
  case inr.inl => rfl
  all_goals cases numeric

end LexRule

namespace Token

-- Tokens that can be read on, or a fault of the text.
def Fair : Except Diagnostic (List Token) → Prop
  | .ok tokens => ∀ token ∈ tokens, token.Readable
  | .error diagnostic => diagnostic.cause.isInternal = false

theorem read_fair (skip : Nat) (place : Position) (input : List Char) :
    Fair (readFrom LexRule.standard skip place input) := by
  induction input generalizing skip place with
  | nil =>
    unfold readFrom
    exact List.forall_mem_singleton.mpr fun numeric => by cases numeric
  | cons c rest ih =>
    cases skip with
    | succ skip => exact ih skip _
    | zero =>
      unfold readFrom
      split
      next => exact ih 0 _
      rcases Match.longest_cases (c :: rest) LexRule.standard with
        ⟨cause, matched, refused⟩ | ⟨matched, _⟩ | ⟨found, matched, chosen⟩
      all_goals rw [matched]
      · obtain ⟨rule, member, fault⟩ := LexRule.refused_member _ _ cause refused
        rcases rule.standard_fault member _ cause fault with rfl | rfl <;> rfl
      · rfl
      · have later := ih (found.length - 1) (place.after c)
        simp only
        split
        next => exact later
        cases read : readFrom LexRule.standard (found.length - 1) (place.after c) rest with
        | error diagnostic =>
          rw [read] at later
          exact later
        | ok tokens =>
          rw [read] at later
          refine List.forall_mem_cons.mpr ⟨fun numeric => ?_, later⟩
          have recognized := chosen.takes
          rw [found.rule.standard_number (LexRule.chosen_member _ _ _ _ chosen) numeric] at recognized
          have numeral := Recognizer.number_read _ _ recognized
          obtain ⟨length, same⟩ := Nat.exists_eq_succ_of_ne_zero chosen.something
          rw [same, List.take_succ_cons] at numeral
          rw [same]
          exact numeral

end Token

end CoopScript
