import CoopScript.Proofs.Grammar.Canonical

set_option autoImplicit false
namespace CoopScript

-- What a reading comes to: this holds of its result and of the place behind it, or that of its fault.
def Parsed.Ends {α : Type} (good : α → Cursor → Prop) (bad : Diagnostic → Prop) : Parsed α → Prop
  | .ok value rest => good value rest
  | .failed diagnostic => bad diagnostic
  | .stalled => True

theorem Parsed.ends_weaken {α : Type} (good fine : α → Cursor → Prop) (bad : Diagnostic → Prop) (parsed : Parsed α)
    (ends : parsed.Ends good bad) (weaker : ∀ value rest, good value rest → fine value rest) : parsed.Ends fine bad := by
  cases parsed with
  | ok value rest => exact weaker value rest ends
  | failed diagnostic => exact ends
  | stalled => trivial

namespace Parse
variable {α β σ : Type}

theorem bind_ok (first : Parse α) (next : α → Parse β) (cursor rest : Cursor) (value : α)
    (ok : first cursor = .ok value rest) : (first >>= next) cursor = next value rest := by
  simp [Bind.bind, bind, ok]

theorem ok_of_bind (first : Parse α) (next : α → Parse β) (cursor rest : Cursor) (value : β)
    (ok : (first >>= next) cursor = .ok value rest) :
    ∃ middle result, first cursor = .ok result middle ∧ next result middle = .ok value rest := by
  simp only [Bind.bind, bind] at ok
  cases ran : first cursor with
  | ok result middle =>
    rw [ran] at ok
    exact ⟨middle, result, rfl, ok⟩
  | failed | stalled =>
    rw [ran] at ok
    cases ok

theorem cursor_then (next : Cursor → Parse α) (here : Cursor) : (cursor >>= next) here = next here here := rfl

-- What a step gives is what the next one begins with, and a fault of either is the fault of both.
theorem bind_ends (good : α → Cursor → Prop) (fine : β → Cursor → Prop) (bad : Diagnostic → Prop) (first : Parse α)
    (next : α → Parse β) (cursor : Cursor) (ends : (first cursor).Ends good bad)
    (later : ∀ value rest, good value rest → (next value rest).Ends fine bad) : ((first >>= next) cursor).Ends fine bad := by
  simp only [Bind.bind, bind]
  cases ran : first cursor with
  | ok value rest =>
    rw [ran] at ends
    exact later value rest ends
  | failed diagnostic =>
    rw [ran] at ends
    exact ends
  | stalled => trivial

theorem iterate_ends (inv : σ → Cursor → Prop) (good : α → Cursor → Prop) (bad : Diagnostic → Prop)
    (step : σ → Parse (σ ⊕ α)) (round : ∀ state cursor, inv state cursor →
      (step state cursor).Ends (fun result rest => result.elim (inv · rest) (good · rest)) bad)
    (fuel : Nat) (state : σ) (cursor : Cursor) (start : inv state cursor) :
    (iterate step fuel state cursor).Ends good bad := by
  induction fuel generalizing state cursor with
  | zero => trivial
  | succ fuel ih =>
    have ends := round state cursor start
    unfold iterate
    cases ran : step state cursor with
    | ok result middle =>
      rw [ran] at ends
      cases result with
      | inl next => exact ih next middle ends
      | inr value => exact ends
    | failed diagnostic =>
      rw [ran] at ends
      exact ends
    | stalled => trivial

theorem iterate_ok (inv : σ → Cursor → Prop) (good : α → Cursor → Prop) (step : σ → Parse (σ ⊕ α))
    (further : ∀ state cursor next rest, inv state cursor → step state cursor = .ok (.inl next) rest → inv next rest)
    (last : ∀ state cursor value rest, inv state cursor → step state cursor = .ok (.inr value) rest → good value rest)
    (fuel : Nat) (state : σ) (cursor rest : Cursor) (value : α) (start : inv state cursor)
    (ok : iterate step fuel state cursor = .ok value rest) : good value rest := by
  have ends := iterate_ends inv good (fun _ => True) step (fun state cursor start => ?_) fuel state cursor start
  · rw [ok] at ends
    exact ends
  cases ran : step state cursor with
  | ok result middle =>
    cases result with
    | inl next => exact further state cursor next middle start ran
    | inr value => exact last state cursor value middle start ran
  | failed | stalled => trivial

theorem iterate_again (step : σ → Parse (σ ⊕ α)) (fuel : Nat) (state next : σ) (cursor rest : Cursor)
    (ok : step state cursor = .ok (.inl next) rest) :
    iterate step (fuel + 1) state cursor = iterate step fuel next rest := by
  simp only [iterate, ok]

theorem iterate_last (step : σ → Parse (σ ⊕ α)) (fuel : Nat) (state : σ) (value : α) (cursor rest : Cursor)
    (ok : step state cursor = .ok (.inr value) rest) : iterate step (fuel + 1) state cursor = .ok value rest := by
  simp only [iterate, ok]

theorem expect_name_ok (what : String) (cursor rest : Cursor) (token : Token)
    (ok : expectName what cursor = .ok token rest) :
    token.text ∉ keywords ∧ token = cursor.current ∧ rest = cursor.advance := by
  unfold expectName at ok
  by_cases named : cursor.isName = true
  · rw [if_pos named] at ok
    cases ok
    simp only [Cursor.isName, Bool.and_eq_true, Bool.not_eq_true', List.contains_eq_mem, decide_eq_false_iff_not]
      at named
    exact ⟨named.2, rfl, rfl⟩
  · rw [if_neg named] at ok
    cases ok

end Parse

namespace Cursor

-- No operator that could go on here binds more tightly than the limit.
def Tight (cursor : Cursor) (limit : Limit) : Prop :=
  ∀ form ∈ ExpressionForm.standard, form.extend?.isSome = true → form.applies cursor = true →
    limit.Allows form.precedence

theorem tight_none (cursor : Cursor) : cursor.Tight none := fun _ _ _ _ _ member => nomatch member

theorem tight_lowered (cursor : Cursor) (limit : Limit) (precedence : Nat) :
    cursor.Tight (limit.lowered precedence) ↔ cursor.Tight (some precedence) ∧ cursor.Tight limit := by
  simp only [Tight, Limit.allows_lowered, ← imp_and, ← forall_and]
  simp [Limit.Allows]

end Cursor

namespace Grammar

theorem extending_found (minimum : Nat) (cursor : Cursor) (forms : List ExpressionForm) (precedence : Nat)
    (extend : Reader → Node → Nat → Parse Node)
    (found : extending? minimum cursor forms = some (precedence, extend)) :
    ∃ form ∈ forms, form.extend? = some extend ∧ form.precedence = precedence ∧ minimum < precedence ∧
      form.applies cursor = true := by
  induction forms with
  | nil => cases found
  | cons form rest ih =>
    unfold extending? at found
    have later : extending? minimum cursor rest = some (precedence, extend) →
        ∃ other ∈ form :: rest, other.extend? = some extend ∧ other.precedence = precedence ∧
          minimum < precedence ∧ other.applies cursor = true := fun found =>
      have ⟨other, member, facts⟩ := ih found
      ⟨other, List.mem_cons_of_mem form member, facts⟩
    cases extends_ : form.extend? with
    | none =>
      rw [extends_] at found
      exact later found
    | some own =>
      rw [extends_] at found
      by_cases here : (minimum < form.precedence && form.applies cursor) = true
      · simp only [here, if_true] at found
        cases found
        simp only [Bool.and_eq_true, decide_eq_true_eq] at here
        exact ⟨form, List.mem_cons_self, extends_, rfl, here⟩
      · simp only [here] at found
        exact later found

theorem extending_none (minimum : Nat) (cursor : Cursor) (forms : List ExpressionForm) :
    extending? minimum cursor forms = none ↔ ∀ form ∈ forms, form.extend?.isSome = true →
      form.applies cursor = true → form.precedence ≤ minimum := by
  induction forms with
  | nil => simp [extending?]
  | cons form rest ih =>
    unfold extending?
    cases extends_ : form.extend? with
    | none => simp [ih, extends_]
    | some own =>
      by_cases here : (minimum < form.precedence && form.applies cursor) = true
      · simp only [here, if_true, reduceCtorEq, false_iff]
        simp only [Bool.and_eq_true, decide_eq_true_eq] at here
        exact fun bound => absurd (bound form List.mem_cons_self (by simp [extends_]) here.2) (by omega)
      · simp only [here]
        simp only [Bool.and_eq_true, decide_eq_true_eq, not_and, Bool.not_eq_true] at here
        rw [if_neg Bool.false_ne_true, ih]
        constructor
        · intro bound other member extendsOther applies
          rcases List.mem_cons.mp member with rfl | later
          · by_contra loose
            rw [here (by omega)] at applies
            cases applies
          · exact bound other later extendsOther applies
        · exact fun bound other member => bound other (List.mem_cons_of_mem form member)

theorem starting_found (cursor : Cursor) (forms : List ExpressionForm) (precedence : Nat)
    (start : Reader → Nat → Parse Node) (found : starting? cursor forms = some (precedence, start)) :
    ∃ form ∈ forms, form.start? = some start ∧ form.precedence = precedence ∧ form.applies cursor = true := by
  induction forms with
  | nil => cases found
  | cons form rest ih =>
    unfold starting? at found
    have later : starting? cursor rest = some (precedence, start) → ∃ other ∈ form :: rest,
        other.start? = some start ∧ other.precedence = precedence ∧ other.applies cursor = true := fun found =>
      have ⟨other, member, facts⟩ := ih found
      ⟨other, List.mem_cons_of_mem form member, facts⟩
    cases starts : form.start? with
    | none =>
      rw [starts] at found
      exact later found
    | some own =>
      rw [starts] at found
      by_cases here : form.applies cursor = true
      · simp only [here, if_true] at found
        cases found
        exact ⟨form, List.mem_cons_self, starts, rfl, here⟩
      · simp only [here] at found
        exact later found

theorem extending_tight (minimum : Nat) (cursor : Cursor) :
    extending? minimum cursor ExpressionForm.standard = none ↔ cursor.Tight (some minimum) := by
  simp [extending_none, Cursor.Tight, Limit.Allows]

end Grammar

namespace Reader
variable (reader : Reader)

-- The loops of the readers, one round at a time.
def blockStep (opening : Token) (items : List Node) : Parse (List Node ⊕ List Node) := do
  Parse.skipSeparators
  if ← Parse.takeIf (·.isBracket "\x7d") then return .inr items.reverse
  if ← Parse.ask Cursor.atEnd then Parse.fail (Parse.unmatched opening)
  return .inl ((← reader.statement) :: items)

def listStep (opening : Token) (closing : String) (items : List Node) : Parse (List Node ⊕ List Node) := do
  let items := (← reader.expression 0) :: items
  if ← Parse.takeIf (·.isSymbol ",") then return .inl items
  let _ ← Parse.expectClosing opening closing
  return .inr items.reverse

def programStep (items : List Node) : Parse (List Node ⊕ List Node) := do
  if ← Parse.ask Cursor.atEnd then return .inr items.reverse
  let item ← reader.statement
  Parse.skipSeparators
  return .inl (item :: items)

def parameterStep (function : String) (opening : Token) (names : List String) : Parse (List String ⊕ List String) := do
  let parameter ← Parse.expectName "parameter name"
  if names.contains parameter.text then
    Parse.fail (.located (.duplicateParameter parameter.text function) parameter.position)
  let names := names ++ [parameter.text]
  if ← Parse.takeIf (·.isSymbol ",") then return .inl names
  let _ ← Parse.expectClosing opening ")"
  return .inr names

theorem block_rounds : reader.block = (do
    let opening ← Parse.expect .bracket "\x7b"
    Parse.iterate (reader.blockStep opening) reader.fuel []) := rfl

theorem list_rounds (opening : Token) (closing : String) : reader.list opening closing = (do
    if ← Parse.takeIf (·.isBracket closing) then return []
    Parse.iterate (reader.listStep opening closing) reader.fuel []) := rfl

theorem program_rounds : reader.program = (do
    Parse.skipSeparators
    Parse.iterate reader.programStep reader.fuel []) := rfl

theorem program_step_ended (items : List Node) (cursor : Cursor) (ended : cursor.atEnd = true) :
    reader.programStep items cursor = .ok (.inr items.reverse) cursor := by
  simp only [programStep, Bind.bind, Parse.bind, Parse.ask, ended, if_true]
  rfl

theorem program_step_inside (items : List Node) (cursor : Cursor) (inside : cursor.atEnd = false) :
    reader.programStep items cursor =
      match reader.statement cursor with
      | .ok item rest => .ok (.inl (item :: items)) rest.skipSeparators
      | .failed diagnostic => .failed diagnostic
      | .stalled => .stalled := by
  simp only [programStep, Bind.bind, Parse.bind, Parse.ask, inside, Bool.false_eq_true, if_false]
  cases reader.statement cursor <;> rfl

theorem parameter_rounds (function : String) (opening : Token) :
    StatementForm.parameters reader function opening = (do
      if ← Parse.takeIf (·.isBracket ")") then return []
      Parse.iterate (parameterStep function opening) reader.fuel []) := rfl

end Reader

end CoopScript
