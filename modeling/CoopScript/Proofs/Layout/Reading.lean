import CoopScript.Proofs.Fault.Reading
import CoopScript.Proofs.Lens.Value

/-!
Two readings of the same tokens, the second without their places. Where the tokens end, the second may find a separator
and go on; then it is only asked that what the first has read by then is read again.
-/
set_option autoImplicit false
namespace CoopScript

def Token.unplaced (token : Token) : Token := { token with position := default }

def Diagnostic.unplaced (diagnostic : Diagnostic) : Diagnostic :=
  { cause := diagnostic.cause
    position := diagnostic.position.map fun _ => default
    notes := diagnostic.notes.map fun
      | .whileExecuting what position => .whileExecuting what (position.map fun _ => default)
      | note => note }

-- Only places are not seen.
def Lens.placeless : Lens where
  blurs := true
  deaf := fun _ => false
  offset := 0
  outer := []
  bound := none
  extra := []
  exact := True
  outside := Lens.none_outside
  hears := Lens.none_deaf

-- What the second reading finds in place of the end mark, if it finds another thing: a separator and more. `exact` is
-- whether it also fails where the first does.
structure Sequel where
  next : Option (Token × List Token)
  exact : Prop
  closed : exact → next = none
  separated : ∀ separator more, next = some (separator, more) → separator.kind = .separator

def Sequel.ending (exact : Prop) : Sequel := ⟨none, exact, fun _ => rfl, nofun⟩

namespace Cursor

def endsFrom (current : Token) : List Token → Prop
  | [] => current.kind = .finish
  | next :: rest => current.kind ≠ .finish ∧ endsFrom next rest

-- The last token in view is an end mark, and it is the only one.
def Ends (cursor : Cursor) : Prop := endsFrom cursor.current cursor.rest

variable (cursor : Cursor)

theorem ends_rest (ends : cursor.Ends) : cursor.atEnd = false ↔ cursor.rest ≠ [] := by
  obtain ⟨current, rest⟩ := cursor
  cases rest with
  | nil =>
    have ended : current.kind = .finish := ends
    simp [atEnd, isKind, ended]
  | cons next rest => simpa [atEnd, isKind] using ends.1

theorem advance_inside (next : Token) (rest : List Token) (more : cursor.rest = next :: rest)
    (inside : cursor.atEnd = false) : cursor.advance = ⟨next, rest⟩ := by
  have other : cursor.current.kind ≠ .finish := by simpa [atEnd, isKind] using inside
  simp [advance, more, other]

theorem ends_advance (ends : cursor.Ends) (inside : cursor.atEnd = false) :
    cursor.advance.Ends ∧ cursor.advance.rest.length < cursor.rest.length := by
  obtain ⟨next, rest, more⟩ := List.exists_cons_of_ne_nil ((cursor.ends_rest ends).mp inside)
  rw [cursor.advance_inside next rest more inside]
  unfold Ends at ends
  rw [more] at ends
  exact ⟨ends.2, by simp [more]⟩

theorem ends_skip (ends : cursor.Ends) :
    cursor.skipSeparators.Ends ∧ cursor.skipSeparators.rest.length ≤ cursor.rest.length := by
  obtain ⟨current, rest⟩ := cursor
  show Ends (skipFrom current rest) ∧ (skipFrom current rest).rest.length ≤ rest.length
  induction rest generalizing current with
  | nil => exact ⟨ends, Nat.le_refl _⟩
  | cons next rest ih =>
    unfold skipFrom
    split
    · have further := ih next ends.2
      exact ⟨further.1, further.2.trans (Nat.le_succ _)⟩
    · exact ⟨ends, Nat.le_refl _⟩

theorem skip_stops : cursor.skipSeparators.current.kind ≠ .separator ∨ cursor.skipSeparators.rest = [] := by
  obtain ⟨current, rest⟩ := cursor
  show (skipFrom current rest).current.kind ≠ .separator ∨ (skipFrom current rest).rest = []
  induction rest generalizing current with
  | nil => exact .inr rfl
  | cons next rest ih =>
    unfold skipFrom
    split
    next => exact ih next
    next other => exact .inl other

end Cursor

namespace Sequel
variable (sequel : Sequel)

def first (token : Token) : Token :=
  match sequel.next with
  | some (separator, _) => if token.kind = .finish then separator else token.unplaced
  | none => token.unplaced

def later (token : Token) : List Token :=
  match sequel.next with
  | some (_, more) => if token.kind = .finish then more else []
  | none => []

-- The tokens of the second reading.
def tokens (tokens : List Token) : List Token := tokens.flatMap fun token => sequel.first token :: sequel.later token

def cursor (cursor : Cursor) : Cursor :=
  ⟨sequel.first cursor.current, sequel.later cursor.current ++ sequel.tokens cursor.rest⟩

theorem first_inside (token : Token) (inside : token.kind ≠ .finish) :
    sequel.first token = token.unplaced ∧ sequel.later token = [] := by
  unfold first later
  cases sequel.next <;> simp [inside]

theorem first_closed (token : Token) (closed : sequel.next = none) :
    sequel.first token = token.unplaced ∧ sequel.later token = [] := by
  simp [first, later, closed]

theorem first_kind (token : Token) (kind : TokenKind) (other : kind ≠ .finish) (further : kind ≠ .separator) :
    (sequel.first token).kind = kind ↔ token.kind = kind := by
  unfold first
  cases known : sequel.next with
  | none => rfl
  | some found =>
    obtain ⟨separator, more⟩ := found
    simp only
    split
    next finish =>
      rw [sequel.separated separator more known, finish]
      exact ⟨fun same => absurd same.symm further, fun same => absurd same.symm other⟩
    next => rfl

theorem first_text (token : Token) (inside : token.kind ≠ .finish) : (sequel.first token).text = token.text := by
  rw [(sequel.first_inside token inside).1]
  rfl

theorem first_is (token : Token) (kind : TokenKind) (text : String) (other : kind ≠ .finish) (further : kind ≠ .separator) :
    (sequel.first token).is kind text = token.is kind text := by
  unfold Token.is
  by_cases same : token.kind = kind
  · have shown := (sequel.first_kind token kind other further).mpr same
    rw [sequel.first_text token (same ▸ other), shown, same]
  · have shown : (sequel.first token).kind ≠ kind := fun here =>
      same ((sequel.first_kind token kind other further).mp here)
    rw [decide_eq_false shown, decide_eq_false same, Bool.false_and, Bool.false_and]

variable (cursor : Cursor)

theorem current_inside (inside : cursor.atEnd = false) : (sequel.cursor cursor).current = cursor.current.unplaced :=
  (sequel.first_inside cursor.current (by simpa [Cursor.atEnd, Cursor.isKind] using inside)).1

theorem current_closed (closed : sequel.next = none) : (sequel.cursor cursor).current = cursor.current.unplaced :=
  (sequel.first_closed cursor.current closed).1

theorem end_cursor (seen : sequel.next = none ∨ cursor.atEnd = false) :
    (sequel.cursor cursor).atEnd = cursor.atEnd := by
  have same : (sequel.cursor cursor).current = cursor.current.unplaced := by
    rcases seen with closed | inside
    · exact sequel.current_closed cursor closed
    · exact sequel.current_inside cursor inside
  simp only [Cursor.atEnd, Cursor.isKind, same]
  rfl

theorem rest_inside (inside : cursor.atEnd = false) : (sequel.cursor cursor).rest = sequel.tokens cursor.rest := by
  have other : cursor.current.kind ≠ .finish := by simpa [Cursor.atEnd, Cursor.isKind] using inside
  simp [Sequel.cursor, (sequel.first_inside cursor.current other).2]

theorem advance_cursor (ends : cursor.Ends) (inside : cursor.atEnd = false) :
    (sequel.cursor cursor).advance = sequel.cursor cursor.advance := by
  obtain ⟨next, rest, more⟩ := List.exists_cons_of_ne_nil ((cursor.ends_rest ends).mp inside)
  have other : (sequel.cursor cursor).atEnd = false := by
    simpa [Cursor.atEnd, Cursor.isKind, sequel.current_inside cursor inside, Token.unplaced] using inside
  rw [cursor.advance_inside next rest more inside]
  refine (sequel.cursor cursor).advance_inside _ _ ?_ other
  rw [sequel.rest_inside cursor inside, more]
  rfl

theorem skip_again : (sequel.cursor cursor.skipSeparators).skipSeparators = (sequel.cursor cursor).skipSeparators := by
  obtain ⟨current, rest⟩ := cursor
  induction rest generalizing current with
  | nil => rfl
  | cons next rest ih =>
    by_cases separator : current.kind = .separator
    · obtain ⟨shown, none⟩ := sequel.first_inside current (by simp [separator])
      have first : Cursor.skipSeparators ⟨current, next :: rest⟩ = Cursor.skipSeparators ⟨next, rest⟩ := by
        simp [Cursor.skipSeparators, Cursor.skipFrom, separator]
      have second : (sequel.cursor ⟨current, next :: rest⟩).skipSeparators =
          (sequel.cursor ⟨next, rest⟩).skipSeparators := by
        simp [Sequel.cursor, Sequel.tokens, shown, none, Cursor.skipSeparators, Cursor.skipFrom, Token.unplaced, separator]
      rw [first, second]
      exact ih next
    · have here : Cursor.skipSeparators ⟨current, next :: rest⟩ = ⟨current, next :: rest⟩ := if_neg separator
      rw [here]

-- The second reading gets to the same place, unless the first has come to its end.
theorem skip_cursor (reached : sequel.next = none ∨ cursor.skipSeparators.atEnd = false) :
    (sequel.cursor cursor).skipSeparators = sequel.cursor cursor.skipSeparators := by
  rw [← sequel.skip_again]
  have stopped := cursor.skip_stops
  generalize cursor.skipSeparators = place at reached stopped
  have plain : sequel.first place.current = place.current.unplaced ∧ sequel.later place.current = [] := by
    rcases reached with closed | inside
    · exact sequel.first_closed place.current closed
    · exact sequel.first_inside place.current (of_decide_eq_false inside)
  obtain ⟨current, rest⟩ := place
  rcases stopped with other | alone
  · exact (sequel.cursor ⟨current, rest⟩).skip_none (by
      rw [show (sequel.cursor ⟨current, rest⟩).current = _ from plain.1]
      exact other)
  · subst alone
    simp [Sequel.cursor, Sequel.tokens, plain, Cursor.skipSeparators, Cursor.skipFrom]

-- A question that is answered alike in both readings, and with no at the end.
structure Asks (question : Cursor → Bool) : Prop where
  same : ∀ cursor : Cursor, question (sequel.cursor cursor) = question cursor
  inside : ∀ cursor : Cursor, question cursor = true → cursor.atEnd = false

theorem asks_is (kind : TokenKind) (text : String) (other : kind ≠ .finish) (further : kind ≠ .separator) :
    sequel.Asks fun cursor => cursor.current.is kind text := by
  refine ⟨fun cursor => sequel.first_is cursor.current kind text other further, fun cursor yes => ?_⟩
  simp only [Token.is, Bool.and_eq_true, decide_eq_true_eq] at yes
  simp [Cursor.atEnd, Cursor.isKind, yes.1, other]

theorem asks_symbol (text : String) : sequel.Asks (·.isSymbol text) := sequel.asks_is .symbol text (by simp) (by simp)

theorem asks_bracket (text : String) : sequel.Asks (·.isBracket text) := sequel.asks_is .bracket text (by simp) (by simp)

theorem asks_word (text : String) : sequel.Asks (·.isWord text) := sequel.asks_is .word text (by simp) (by simp)

theorem asks_kind (kind : TokenKind) (other : kind ≠ .finish) (further : kind ≠ .separator) :
    sequel.Asks (·.isKind kind) := by
  refine ⟨fun cursor => ?_, fun cursor yes => ?_⟩
  · exact decide_eq_decide.mpr (sequel.first_kind cursor.current kind other further)
  · have same : cursor.current.kind = kind := by simpa [Cursor.isKind] using yes
    simp [Cursor.atEnd, Cursor.isKind, same, other]

theorem asks_name : sequel.Asks Cursor.isName := by
  have words := sequel.asks_kind .word (by simp) (by simp)
  refine ⟨fun cursor => ?_, fun cursor yes => words.inside cursor (by simp [Cursor.isName] at yes; exact yes.1)⟩
  unfold Cursor.isName
  rw [words.same cursor]
  by_cases word : cursor.isKind .word = true
  · have inside := words.inside cursor word
    rw [sequel.current_inside cursor inside]
    rfl
  · simp [word]

theorem asks_any (symbols : List String) : sequel.Asks (ExpressionForm.isAnySymbol symbols) := by
  refine ⟨fun cursor => ?_, fun cursor yes => ?_⟩
  · unfold ExpressionForm.isAnySymbol
    exact congrArg symbols.any (funext fun text => (sequel.asks_symbol text).same cursor)
  · obtain ⟨text, _, symbol⟩ := List.any_eq_true.mp yes
    exact (sequel.asks_symbol text).inside cursor symbol

theorem next_inside (ends : cursor.Ends) (inside : cursor.atEnd = false) (text : String) :
    (sequel.cursor cursor).next.is .word text = cursor.next.is .word text := by
  obtain ⟨next, rest, more⟩ := List.exists_cons_of_ne_nil ((cursor.ends_rest ends).mp inside)
  unfold Cursor.next
  rw [sequel.rest_inside cursor inside, more]
  exact sequel.first_is next .word text (by simp) (by simp)

end Sequel

-- How the second reading ends, if the first leaves `bound` tokens after the current one or fewer.
def Parsed.Echoes {α β : Type} (sequel : Sequel) (see : α → β) (bound : Nat) (ended : Parsed α) (other : Parsed β) :
    Prop :=
  match ended with
  | .ok value rest => other = .ok (see value) (sequel.cursor rest) ∧ rest.Ends ∧ rest.rest.length ≤ bound
  | .failed diagnostic => sequel.exact → other = .failed diagnostic.unplaced
  | .stalled => sequel.exact → other = .stalled

-- The second reading echoes the first from wherever they start; if the first gives something, it takes `least` tokens
-- or more.
def Parse.Echoes {α β : Type} (sequel : Sequel) (see : α → β) (least : Nat) (first : Parse α) (second : Parse β) :
    Prop :=
  ∀ cursor : Cursor, cursor.Ends →
    (first cursor).Echoes sequel see (cursor.rest.length - least) (second (sequel.cursor cursor))

def Parse.Blank {α : Type} (step : Parse α) : Prop :=
  ∀ (cursor : Cursor) (value : α) (rest : Cursor), cursor.atEnd = true → step cursor ≠ .ok value rest

namespace Parsed
variable {α β : Type} (sequel : Sequel) (see : α → β)

theorem Echoes.within {sequel : Sequel} {see : α → β} {bound : Nat} {ended : Parsed α} {other : Parsed β}
    (echoes : ended.Echoes sequel see bound other) (larger : Nat) (fewer : bound ≤ larger) :
    ended.Echoes sequel see larger other := by
  cases ended with
  | ok value rest => exact ⟨echoes.1, echoes.2.1, echoes.2.2.trans fewer⟩
  | failed | stalled => exact echoes

end Parsed

namespace Parse
variable {α β γ δ σ τ : Type} (sequel : Sequel) (see : α → β) (look : γ → δ)

theorem Echoes.any {sequel : Sequel} {see : α → β} {least : Nat} {first : Parse α} {second : Parse β}
    (echoes : first.Echoes sequel see least second) : first.Echoes sequel see 0 second :=
  fun cursor ends => (echoes cursor ends).within _ (Nat.sub_le _ least)

section Sequences
variable (first : Parse α) (second : Parse β) (next : α → Parse γ) (other : β → Parse δ)

theorem bind_further (bound outer : Nat) (cursor : Cursor)
    (echoes : (first cursor).Echoes sequel see bound (second (sequel.cursor cursor)))
    (later : ∀ value rest, rest.Ends → rest.rest.length ≤ bound →
      (next value rest).Echoes sequel look outer (other (see value) (sequel.cursor rest))) :
    ((first >>= next) cursor).Echoes sequel look outer ((second >>= other) (sequel.cursor cursor)) := by
  simp only [Bind.bind, bind]
  cases ran : first cursor with
  | ok value rest =>
    rw [ran] at echoes
    obtain ⟨same, ends, fewer⟩ := echoes
    rw [same]
    exact later value rest ends fewer
  | failed | stalled =>
    rw [ran] at echoes
    exact fun exact => by rw [echoes exact]

theorem bind_echoes (bound : Nat) (cursor : Cursor)
    (echoes : (first cursor).Echoes sequel see bound (second (sequel.cursor cursor)))
    (later : ∀ value, (next value).Echoes sequel look 0 (other (see value))) :
    ((first >>= next) cursor).Echoes sequel look bound ((second >>= other) (sequel.cursor cursor)) :=
  bind_further sequel see look first second next other bound bound cursor echoes fun value rest ends fewer =>
    (later value rest ends).within bound fewer

theorem echoes_bind (least : Nat) (echoes : first.Echoes sequel see least second)
    (later : ∀ value, (next value).Echoes sequel look 0 (other (see value))) :
    (first >>= next).Echoes sequel look least (second >>= other) :=
  fun cursor ends => bind_echoes sequel see look first second next other _ cursor (echoes cursor ends) later

theorem echoes_then (least : Nat) (echoes : first.Echoes sequel see 0 second)
    (later : ∀ value, (next value).Echoes sequel look least (other (see value))) :
    (first >>= next).Echoes sequel look least (second >>= other) :=
  fun cursor ends => bind_further sequel see look first second next other _ _ cursor (echoes cursor ends)
    fun value rest ends fewer => (later value rest ends).within _ (Nat.sub_le_sub_right fewer least)

end Sequences

theorem echoes_pure (value : α) : (Pure.pure value : Parse α).Echoes sequel see 0 (Pure.pure (see value)) :=
  fun _ ends => ⟨rfl, ends, Nat.le_refl _⟩

theorem echoes_fail (least : Nat) (diagnostic : Diagnostic) :
    (fail diagnostic : Parse α).Echoes sequel see least (fail diagnostic.unplaced) := fun _ _ _ => rfl

theorem echoes_unexpected (least : Nat) (what : String) :
    (unexpected what : Parse α).Echoes sequel see least (unexpected what) := by
  intro cursor _ exact
  simp only [unexpected, sequel.current_closed cursor (sequel.closed exact)]
  rfl

theorem echoes_iterate (see : σ → τ) (step : σ → Parse (σ ⊕ γ)) (other : τ → Parse (τ ⊕ δ))
    (echoes : ∀ state, (step state).Echoes sequel (Sum.map see look) 0 (other (see state))) (fuel more : Nat)
    (fewer : fuel ≤ more) (same : sequel.exact → fuel = more) (state : σ) :
    (iterate step fuel state).Echoes sequel look 0 (iterate other more (see state)) := by
  induction fuel generalizing more state with
  | zero =>
    intro cursor _ exact
    rw [← same exact]
    rfl
  | succ fuel ih =>
    obtain ⟨more, rfl⟩ := Nat.exists_eq_add_of_le' (Nat.lt_of_lt_of_le (Nat.succ_pos fuel) fewer)
    intro cursor ends
    have round := echoes state cursor ends
    simp only [iterate]
    cases ran : step state cursor with
    | ok result rest =>
      rw [ran] at round
      obtain ⟨alike, ends, shorter⟩ := round
      rw [alike]
      cases result with
      | inl next =>
        exact (ih more (by omega) (fun exact => by have := same exact; omega) next rest ends).within _ shorter
      | inr value => exact ⟨rfl, ends, shorter⟩
    | failed | stalled =>
      rw [ran] at round
      exact fun exact => by rw [round exact]

theorem take_echoes (cursor : Cursor) (ends : cursor.Ends) (inside : cursor.atEnd = false) :
    (take cursor).Echoes sequel Token.unplaced (cursor.rest.length - 1) (take (sequel.cursor cursor)) := by
  obtain ⟨further, shorter⟩ := cursor.ends_advance ends inside
  refine ⟨?_, further, by omega⟩
  simp only [take, sequel.current_inside cursor inside, sequel.advance_cursor cursor ends inside]

theorem current_echoes (first : Token → Parse α) (second : Token → Parse β) (bound : Nat) (cursor : Cursor)
    (inside : cursor.atEnd = false)
    (echoes : (first cursor.current cursor).Echoes sequel see bound
      (second cursor.current.unplaced (sequel.cursor cursor))) :
    ((current >>= first) cursor).Echoes sequel see bound ((current >>= second) (sequel.cursor cursor)) := by
  rw [← sequel.current_inside cursor inside] at echoes
  exact echoes

theorem echoes_ask (question : Cursor → Bool) (same : ∀ cursor : Cursor, question (sequel.cursor cursor) = question cursor) :
    (ask question).Echoes sequel id 0 (ask question) :=
  fun cursor ends => ⟨by simp only [ask, same, id], ends, Nat.le_refl _⟩

section Questions
variable (question : Cursor → Bool) (asks : sequel.Asks question)
include asks

theorem echoes_take_if : (takeIf question).Echoes sequel id 0 (takeIf question) := by
  intro cursor ends
  simp only [takeIf, asks.same]
  by_cases yes : question cursor = true
  · have inside := asks.inside cursor yes
    obtain ⟨further, shorter⟩ := cursor.ends_advance ends inside
    simp only [yes, if_true]
    exact ⟨by rw [sequel.advance_cursor cursor ends inside]; rfl, further, by omega⟩
  · simp only [yes]
    exact ⟨rfl, ends, Nat.le_refl _⟩

theorem echoes_expected (refuse second : Parse Token) (refused : refuse.Echoes sequel Token.unplaced 1 second) :
    Parse.Echoes sequel Token.unplaced 1 (fun cursor => if question cursor then take cursor else refuse cursor)
      (fun cursor => if question cursor then take cursor else second cursor) := by
  intro cursor ends
  simp only [asks.same]
  by_cases yes : question cursor = true
  · simp only [yes, if_true]
    exact take_echoes sequel cursor ends (asks.inside cursor yes)
  · simp only [yes]
    exact refused cursor ends

end Questions

theorem echoes_expect (kind : TokenKind) (text : String) (other : kind ≠ .finish) (further : kind ≠ .separator) :
    (expect kind text).Echoes sequel Token.unplaced 1 (expect kind text) :=
  echoes_expected sequel _ (sequel.asks_is kind text other further) _ _ (echoes_unexpected sequel _ 1 _)

theorem echoes_expect_name (what : String) : (expectName what).Echoes sequel Token.unplaced 1 (expectName what) :=
  echoes_expected sequel _ sequel.asks_name _ _ (echoes_unexpected sequel _ 1 _)

theorem echoes_expect_closing (opening : Token) (closing : String) :
    (expectClosing opening closing).Echoes sequel Token.unplaced 1 (expectClosing opening.unplaced closing) := by
  refine echoes_expected sequel _ (sequel.asks_bracket closing) _ _ fun cursor ends => ?_
  have refused := echoes_unexpected sequel Token.unplaced 1 (Cause.ticked closing) cursor ends
  by_cases ended : cursor.atEnd = true
  · simp only [ended, if_true]
    intro exact
    simp only [sequel.end_cursor cursor (.inl (sequel.closed exact)), ended, if_true]
    rfl
  · rw [if_neg ended]
    intro exact
    rw [sequel.end_cursor cursor (.inl (sequel.closed exact)), if_neg ended]
    exact refused exact

theorem echoes_before_end (diagnostic : Diagnostic) (first : Parse α) (second : Parse β)
    (echoes : first.Echoes sequel see 0 second) :
    Parse.Echoes sequel see 0
      (do
        if ← ask Cursor.atEnd then fail diagnostic
        first)
      (do
        if ← ask Cursor.atEnd then fail diagnostic.unplaced
        second) := by
  intro cursor ends
  simp only [Bind.bind, bind, ask]
  cases ended : cursor.atEnd with
  | true =>
    intro exact
    rw [sequel.end_cursor cursor (.inl (sequel.closed exact)), ended]
    rfl
  | false =>
    rw [sequel.end_cursor cursor (.inr ended), ended]
    exact echoes cursor ends

-- Separators are skipped alike, except where the first reading has come to its end; there it must read on in vain.
theorem echoes_skip (least : Nat) (first : Unit → Parse α) (second : Unit → Parse β) (blank : (first ()).Blank)
    (echoes : (first ()).Echoes sequel see least (second ())) :
    (skipSeparators >>= first).Echoes sequel see least (skipSeparators >>= second) := by
  intro cursor ends
  obtain ⟨further, fewer⟩ := cursor.ends_skip ends
  have onward := (echoes cursor.skipSeparators further).within (cursor.rest.length - least) (by omega)
  show (first () cursor.skipSeparators).Echoes _ _ _ (second () (sequel.cursor cursor).skipSeparators)
  cases ended : cursor.skipSeparators.atEnd with
  | false =>
    rw [sequel.skip_cursor cursor (.inr ended)]
    exact onward
  | true =>
    have closed (exact : sequel.exact) := sequel.skip_cursor cursor (.inl (sequel.closed exact))
    cases ran : first () cursor.skipSeparators with
    | ok value rest => exact absurd ran (blank _ value rest ended)
    | failed | stalled =>
      rw [ran] at onward
      exact fun exact => by rw [closed exact]; exact onward exact

end Parse
end CoopScript
