import CoopScript.Proofs.Layout.Grammar

set_option autoImplicit false
namespace CoopScript

-- An end mark stands at the end of the tokens and nowhere else.
def Token.Closed (tokens : List Token) : Prop :=
  ∃ front stop, tokens = front ++ [stop] ∧ stop.kind = .finish ∧ ∀ token ∈ front, token.kind ≠ .finish

-- The fault is one of reading, and it is found at one of the tokens.
def Diagnostic.Among (tokens : List Token) (diagnostic : Diagnostic) : Prop :=
  diagnostic.kind = .parser ∧ ∃ token ∈ tokens, diagnostic.position = some token.position

namespace Cursor

-- What is in view are the tokens from an index on.
def At (tokens : List Token) (index : Nat) (cursor : Cursor) : Prop :=
  tokens.drop index = cursor.current :: cursor.rest

structure Within (tokens : List Token) (cursor : Cursor) : Prop where
  ends : cursor.Ends
  among : cursor.current :: cursor.rest <:+ tokens

theorem ends_closed (front : List Token) (stop current : Token) (rest : List Token) (finish : stop.kind = .finish)
    (inside : ∀ token ∈ front, token.kind ≠ .finish) (split : current :: rest = front ++ [stop]) :
    endsFrom current rest := by
  induction front generalizing current rest with
  | nil =>
    cases split
    exact finish
  | cons token front ih =>
    obtain ⟨rfl, rfl⟩ := List.cons.inj split
    obtain ⟨here, later⟩ := List.forall_mem_cons.mp inside
    cases front with
    | nil => exact ⟨here, finish⟩
    | cons next front => exact ⟨here, ih next _ later rfl⟩

section Places
variable (tokens : List Token) (index : Nat) (cursor : Cursor)

theorem at_within (closed : Token.Closed tokens) (here : cursor.At tokens index) : cursor.Within tokens := by
  have among : cursor.current :: cursor.rest <:+ tokens := here ▸ List.drop_suffix index tokens
  obtain ⟨front, stop, rfl, finish, inside⟩ := closed
  refine ⟨?_, among⟩
  rcases List.suffix_concat_iff.mp among with none | ⟨behind, split, suffix⟩
  · cases none
  · exact ends_closed behind stop _ _ finish (fun token member => inside token (suffix.subset member)) split

theorem at_length (here : cursor.At tokens index) : index + cursor.rest.length + 1 = tokens.length := by
  have length := congrArg List.length here
  simp only [List.length_drop, List.length_cons] at length
  omega

theorem within_at (within : cursor.Within tokens) : ∃ later, cursor.At tokens later := by
  obtain ⟨front, rfl⟩ := within.among
  exact ⟨front.length, List.drop_left⟩

variable {tokens cursor} (within : cursor.Within tokens)
include within

theorem Within.current : cursor.current ∈ tokens := within.among.subset List.mem_cons_self

theorem Within.advance (inside : cursor.atEnd = false) : cursor.advance.Within tokens := by
  obtain ⟨next, rest, more⟩ := List.exists_cons_of_ne_nil ((cursor.ends_rest within.ends).mp inside)
  refine ⟨(cursor.ends_advance within.ends inside).1, ?_⟩
  have behind := (List.suffix_cons cursor.current cursor.rest).trans within.among
  rw [more] at behind
  rw [cursor.advance_inside next rest more inside]
  exact behind

theorem Within.skip : cursor.skipSeparators.Within tokens := by
  refine ⟨(cursor.ends_skip within.ends).1, List.IsSuffix.trans ?_ within.among⟩
  have skipped (tokens : List Token) (current : Token) :
      (skipFrom current tokens).current :: (skipFrom current tokens).rest <:+ current :: tokens := by
    induction tokens generalizing current with
    | nil => exact List.suffix_refl _
    | cons next rest ih =>
      unfold skipFrom
      by_cases separator : current.kind = .separator
      · rw [if_pos separator]
        exact (ih next).trans (List.suffix_cons current _)
      · simp only [if_neg separator, List.suffix_refl]
  exact skipped cursor.rest cursor.current

end Places

theorem inside_is (cursor : Cursor) (kind : TokenKind) (text : String) (other : kind ≠ .finish)
    (shown : cursor.current.is kind text = true) : cursor.atEnd = false := by
  simp only [Token.is, Bool.and_eq_true, decide_eq_true_eq] at shown
  simp [atEnd, isKind, shown.1, other]

end Cursor

-- What a reading comes to that has `size` tokens behind the current one. It takes `gain` of them or more, or its
-- fault is found at one of the tokens; and it has not run out of steps unless `size` takes up all of its `room`.
def Parsed.Gains {α : Type} (tokens : List Token) (size room gain : Nat) (good : α → Prop) : Parsed α → Prop
  | .ok value rest => good value ∧ rest.Within tokens ∧ rest.rest.length + gain ≤ size
  | .failed diagnostic => diagnostic.Among tokens
  | .stalled => room ≤ size

def Parse.Gains {α : Type} (tokens : List Token) (room gain : Nat) (good : α → Prop) (step : Parse α) : Prop :=
  ∀ cursor, cursor.Within tokens → (step cursor).Gains tokens cursor.rest.length room gain good

-- A round ends the loop where it stands, or it takes a token.
def Parse.Rounds {α σ : Type} (tokens : List Token) (room : Nat) (step : σ → Parse (σ ⊕ α)) : Prop :=
  ∀ state cursor, cursor.Within tokens → (∃ value, step state cursor = .ok (.inr value) cursor) ∨
    (step state cursor).Gains tokens cursor.rest.length room 1 fun _ => True

section Gains
variable {α β σ : Type} {tokens : List Token} {room gain size : Nat} {good : α → Prop} {fine : β → Prop}

theorem Parsed.Gains.weaken {parsed : Parsed α} (gains : parsed.Gains tokens size room gain good) (less fewer : Nat)
    (narrower : less ≤ room) (slower : fewer ≤ gain) : parsed.Gains tokens size less fewer good := by
  cases parsed with
  | ok value rest => exact ⟨gains.1, gains.2.1, (Nat.add_le_add_left slower _).trans gains.2.2⟩
  | failed diagnostic => exact gains
  | stalled => exact narrower.trans gains

-- What has been gained before is gained, and as much room was needed less behind it.
theorem Parsed.Gains.after {parsed : Parsed α} (less more : Nat) (taken : less + gain ≤ size)
    (gains : parsed.Gains tokens less (room - gain) (more - gain) good) : parsed.Gains tokens size room more good := by
  cases parsed with
  | ok value rest =>
    obtain ⟨known, within, shorter⟩ := gains
    exact ⟨known, within, by omega⟩
  | failed diagnostic => exact gains
  | stalled =>
    have full : room - gain ≤ less := gains
    show room ≤ size
    omega

namespace Parse

theorem Gains.weaken {step : Parse α} (gains : step.Gains tokens room gain good) (less fewer : Nat)
    (narrower : less ≤ room) (slower : fewer ≤ gain) : step.Gains tokens less fewer good :=
  fun cursor within => (gains cursor within).weaken less fewer narrower slower

theorem bind_gains (first : Parse α) (next : α → Parse β) (cursor : Cursor) (more : Nat)
    (gains : (first cursor).Gains tokens size room gain good)
    (later : ∀ value, good value → (next value).Gains tokens (room - gain) (more - gain) fine) :
    ((first >>= next) cursor).Gains tokens size room more fine := by
  simp only [Bind.bind, bind]
  cases ran : first cursor with
  | ok value rest =>
    rw [ran] at gains
    obtain ⟨known, within, shorter⟩ := gains
    exact (later value known rest within).after _ more shorter
  | failed diagnostic =>
    rw [ran] at gains
    exact gains
  | stalled =>
    rw [ran] at gains
    exact gains

theorem gains_bind (first : Parse α) (next : α → Parse β) (more : Nat) (gains : first.Gains tokens room gain good)
    (later : ∀ value, good value → (next value).Gains tokens (room - gain) (more - gain) fine) :
    (first >>= next).Gains tokens room more fine :=
  fun cursor within => bind_gains first next cursor more (gains cursor within) later

theorem gains_pure (value : α) (known : good value) : (Pure.pure value : Parse α).Gains tokens room 0 good :=
  fun _ within => ⟨known, within, Nat.le_refl _⟩

theorem gains_fail (diagnostic : Diagnostic) (among : diagnostic.Among tokens) :
    (fail diagnostic : Parse α).Gains tokens room gain good := fun _ _ => among

theorem gains_unexpected (what : String) : (unexpected what : Parse α).Gains tokens room gain good :=
  fun _ within => ⟨rfl, _, within.current, rfl⟩

theorem gains_current : current.Gains tokens room 0 (· ∈ tokens) :=
  fun _ within => ⟨within.current, within, Nat.le_refl _⟩

theorem gains_ask (question : Cursor → Bool) : (ask question).Gains tokens room 0 fun _ => True :=
  fun _ within => ⟨trivial, within, Nat.le_refl _⟩

theorem gains_skip : skipSeparators.Gains tokens room 0 fun _ => True :=
  fun cursor within => ⟨trivial, within.skip, (cursor.ends_skip within.ends).2⟩

theorem take_gains (cursor : Cursor) (within : cursor.Within tokens) (inside : cursor.atEnd = false) :
    (take cursor).Gains tokens cursor.rest.length room 1 (· ∈ tokens) :=
  ⟨within.current, within.advance inside, (cursor.ends_advance within.ends inside).2⟩

theorem gains_take_if (kind : TokenKind) (text : String) (other : kind ≠ .finish) :
    (takeIf fun cursor => cursor.current.is kind text).Gains tokens room 0 fun _ => True := by
  intro cursor within
  unfold takeIf
  by_cases shown : cursor.current.is kind text = true
  · have inside := cursor.inside_is kind text other shown
    rw [if_pos shown]
    exact ⟨trivial, within.advance inside, (cursor.ends_advance within.ends inside).2.le⟩
  · rw [if_neg shown]
    exact ⟨trivial, within, Nat.le_refl _⟩

theorem gains_expect (kind : TokenKind) (text : String) (other : kind ≠ .finish) :
    (expect kind text).Gains tokens room 1 (· ∈ tokens) := by
  intro cursor within
  unfold expect
  by_cases shown : cursor.current.is kind text = true
  · rw [if_pos shown]
    exact take_gains cursor within (cursor.inside_is kind text other shown)
  · rw [if_neg shown]
    exact gains_unexpected _ cursor within

theorem gains_expect_name (what : String) : (expectName what).Gains tokens room 1 (· ∈ tokens) := by
  intro cursor within
  unfold expectName
  by_cases named : cursor.isName = true
  · rw [if_pos named]
    exact take_gains cursor within ((Sequel.ending True).asks_name.inside cursor named)
  · rw [if_neg named]
    exact gains_unexpected _ cursor within

-- When the tokens end too early the fault is found at the opening bracket, which has been read before.
theorem gains_expect_closing (opening : Token) (before : opening ∈ tokens) (closing : String) :
    (expectClosing opening closing).Gains tokens room 1 (· ∈ tokens) := by
  intro cursor within
  unfold expectClosing
  by_cases shown : cursor.isBracket closing = true
  · rw [if_pos shown]
    exact take_gains cursor within (cursor.inside_is .bracket closing (by decide) shown)
  rw [if_neg shown]
  by_cases ended : cursor.atEnd = true
  · rw [if_pos ended]
    exact ⟨rfl, opening, before, rfl⟩
  · rw [if_neg ended]
    exact gains_unexpected _ cursor within

theorem rounds_gain (step : σ → Parse (σ ⊕ α)) (gains : ∀ state, (step state).Gains tokens room 1 fun _ => True) :
    Rounds tokens room step := fun state cursor within => .inr (gains state cursor within)

-- Every round but the last takes a token, so there are no more rounds than tokens and one.
theorem gains_iterate (step : σ → Parse (σ ⊕ α)) (rounds : Rounds tokens room step) (fuel : Nat) (fits : room ≤ fuel)
    (state : σ) : (iterate step fuel state).Gains tokens room 0 fun _ => True := by
  intro cursor within
  induction fuel generalizing room state cursor with
  | zero => exact fits.trans (Nat.zero_le _)
  | succ fuel ih =>
    unfold iterate
    rcases rounds state cursor within with ⟨value, last⟩ | gains
    · rw [last]
      exact ⟨trivial, within, Nat.le_refl _⟩
    cases ran : step state cursor with
    | ok result middle =>
      rw [ran] at gains
      obtain ⟨-, further, shorter⟩ := gains
      cases result with
      | inl next =>
        have narrower : Rounds tokens (room - 1) step := fun state cursor within =>
          (rounds state cursor within).imp_right fun gains => gains.weaken _ 1 (Nat.sub_le _ _) (Nat.le_refl _)
        exact (ih narrower (by omega) next middle further).after _ 0 shorter
      | inr value => exact ⟨trivial, further, by omega⟩
    | failed diagnostic =>
      rw [ran] at gains
      exact gains
    | stalled =>
      rw [ran] at gains
      exact gains

end Parse
end Gains

structure Reader.Gains (tokens : List Token) (reader : Reader) : Prop where
  statement : reader.statement.Gains tokens (reader.fuel - 1) 1 fun _ => True
  expression : ∀ minimum, (reader.expression minimum).Gains tokens reader.fuel 1 fun _ => True

section Reading
variable {tokens : List Token} (reader : Reader) (gains : reader.Gains tokens)

namespace Reader

section Loops
variable (opening : Token) (before : opening ∈ tokens)
include before

include gains in
theorem block_step_gains (items : List Node) :
    (reader.blockStep opening items).Gains tokens (reader.fuel - 1) 1 fun _ => True := by
  refine Parse.gains_bind _ _ 1 Parse.gains_skip fun _ _ cursor within => ?_
  by_cases shown : cursor.isBracket "\x7d" = true
  · have closes : Parse.takeIf (·.isBracket "\x7d") cursor = .ok true cursor.advance := if_pos shown
    rw [Parse.bind_ok _ _ _ _ _ closes]
    have inside := cursor.inside_is .bracket "\x7d" (by decide) shown
    exact ⟨trivial, within.advance inside, (cursor.ends_advance within.ends inside).2⟩
  · have stays : Parse.takeIf (·.isBracket "\x7d") cursor = .ok false cursor := if_neg shown
    rw [Parse.bind_ok _ _ _ _ _ stays]
    refine Parse.gains_bind _ _ 1 (Parse.gains_ask _) (fun ended _ => ?_) cursor within
    have line : (do return .inl ((← reader.statement) :: items) : Parse (List Node ⊕ List Node)).Gains tokens
        (reader.fuel - 1) 1 fun _ => True :=
      Parse.gains_bind _ _ 1 gains.statement fun _ _ => Parse.gains_pure _ trivial
    by_cases none : ended = true
    · rw [if_pos none]
      exact Parse.gains_bind _ _ 1 (Parse.gains_fail _ ⟨rfl, opening, before, rfl⟩ : Parse.Gains tokens _ 0 (fun _ => True) _)
        fun _ _ => line
    · rw [if_neg none]
      exact line

include gains in
theorem list_step_gains (closing : String) (items : List Node) :
    (reader.listStep opening closing items).Gains tokens reader.fuel 1 fun _ => True := by
  refine Parse.gains_bind _ _ 1 (gains.expression 0) fun item _ => ?_
  refine Parse.gains_bind _ _ 0 (Parse.gains_take_if .symbol "," (by decide)) fun more _ => ?_
  by_cases further : more = true
  · rw [if_pos further]
    exact Parse.gains_pure _ trivial
  · rw [if_neg further]
    exact Parse.gains_bind _ _ 0 (Parse.gains_expect_closing opening before closing) fun _ _ => Parse.gains_pure _ trivial

theorem parameter_step_gains (room : Nat) (function : String) (names : List String) :
    (parameterStep function opening names).Gains tokens room 1 fun _ => True := by
  refine Parse.gains_bind _ _ 1 (Parse.gains_expect_name _) fun parameter known => ?_
  have listed : Parse.Gains tokens (room - 1) 0 (fun _ => True) (do
      let names := names ++ [parameter.text]
      if ← Parse.takeIf (·.isSymbol ",") then return .inl names
      let _ ← Parse.expectClosing opening ")"
      return .inr names : Parse (List String ⊕ List String)) := by
    refine Parse.gains_bind _ _ 0 (Parse.gains_take_if .symbol "," (by decide)) fun more _ => ?_
    by_cases further : more = true
    · rw [if_pos further]
      exact Parse.gains_pure _ trivial
    · rw [if_neg further]
      exact Parse.gains_bind _ _ 0 (Parse.gains_expect_closing opening before ")") fun _ _ => Parse.gains_pure _ trivial
  by_cases twice : names.contains parameter.text = true
  · rw [if_pos twice]
    exact Parse.gains_bind _ _ 0 (Parse.gains_fail _ ⟨rfl, parameter, known, rfl⟩ : Parse.Gains tokens _ 0 (fun _ => True) _)
      fun _ _ => listed
  · rw [if_neg twice]
    exact listed

include gains in
theorem list_gains (closing : String) : (reader.list opening closing).Gains tokens reader.fuel 0 fun _ => True := by
  rw [list_rounds]
  refine Parse.gains_bind _ _ 0 (Parse.gains_take_if .bracket closing (by decide)) fun empty _ => ?_
  by_cases none : empty = true
  · rw [if_pos none]
    exact Parse.gains_pure _ trivial
  · rw [if_neg none]
    exact Parse.gains_iterate _ (Parse.rounds_gain _ (reader.list_step_gains gains opening before closing)) _
      (Nat.le_refl _) _

theorem parameters_gains (function : String) :
    (StatementForm.parameters reader function opening).Gains tokens reader.fuel 0 fun _ => True := by
  rw [parameter_rounds]
  refine Parse.gains_bind _ _ 0 (Parse.gains_take_if .bracket ")" (by decide)) fun empty _ => ?_
  by_cases none : empty = true
  · rw [if_pos none]
    exact Parse.gains_pure _ trivial
  · rw [if_neg none]
    exact Parse.gains_iterate _ (Parse.rounds_gain _ (parameter_step_gains opening before _ function)) _ (Nat.le_refl _) _

end Loops

include gains

theorem block_gains : reader.block.Gains tokens reader.fuel 1 fun _ => True := by
  rw [block_rounds]
  refine Parse.gains_bind _ _ 1 (Parse.gains_expect .bracket "\x7b" (by decide)) fun opening before => ?_
  exact Parse.gains_iterate _ (Parse.rounds_gain _ (reader.block_step_gains gains opening before)) _ (Nat.sub_le _ _) _

theorem body_gains : reader.body.Gains tokens (reader.fuel - 1) 1 fun _ => True := by
  refine Parse.gains_bind _ _ 1 (Parse.gains_ask _) fun braced _ => ?_
  by_cases shown : braced = true
  · rw [if_pos shown]
    exact (reader.block_gains gains).weaken _ 1 (Nat.sub_le _ 1) (Nat.le_refl _)
  · rw [if_neg shown]
    exact Parse.gains_bind _ _ 1 gains.statement fun _ _ => Parse.gains_pure _ trivial

theorem program_step_rounds : Parse.Rounds tokens (reader.fuel - 1) reader.programStep := by
  intro items cursor within
  unfold programStep
  have asked : Parse.ask Cursor.atEnd cursor = .ok cursor.atEnd cursor := rfl
  rw [Parse.bind_ok _ _ _ _ _ asked]
  by_cases ended : cursor.atEnd = true
  · rw [if_pos ended]
    exact .inl ⟨items.reverse, rfl⟩
  · rw [if_neg ended]
    exact .inr (Parse.gains_bind _ _ 1 gains.statement (fun _ _ => Parse.gains_bind _ _ 0 Parse.gains_skip fun _ _ =>
      Parse.gains_pure _ trivial) cursor within)

theorem program_gains : reader.program.Gains tokens (reader.fuel - 1) 0 fun _ => True := by
  rw [program_rounds]
  exact Parse.gains_bind _ _ 0 Parse.gains_skip fun _ _ =>
    Parse.gains_iterate _ (reader.program_step_rounds gains) _ (Nat.sub_le _ _) _

end Reader

section Inside
variable (cursor : Cursor) (within : cursor.Within tokens) (inside : cursor.atEnd = false)
include gains within inside

namespace ExpressionForm

theorem start_gains (form : ExpressionForm) (member : form ∈ standard) (start : Reader → Nat → Parse Node)
    (starts : form.start? = some start) (precedence : Nat) :
    (start reader precedence cursor).Gains tokens cursor.rest.length (reader.fuel + 1) 1 fun _ => True := by
  have operand (build : Token → Node → Node) : (do
      let token ← Parse.take
      return build token (← reader.expression precedence) : Parse Node) cursor |>.Gains tokens cursor.rest.length
        (reader.fuel + 1) 1 fun _ => True :=
    Parse.bind_gains _ _ cursor 1 (Parse.take_gains cursor within inside) fun _ _ =>
      Parse.gains_bind _ _ 0 (gains.expression precedence) fun _ _ => Parse.gains_pure _ trivial
  simp only [standard, List.mem_cons, List.not_mem_nil, or_false] at member
  rcases member with rfl | rfl | rfl | rfl | rfl | rfl | rfl | rfl | rfl | rfl | rfl | rfl | rfl | rfl | rfl
  all_goals cases starts
  · exact Parse.bind_gains _ _ cursor 1 (Parse.take_gains cursor within inside) fun _ _ => Parse.gains_pure _ trivial
  · refine Parse.bind_gains _ _ cursor 1 (Parse.take_gains cursor within inside) fun token known => ?_
    cases Number.read? token.text with
    | some value => exact Parse.gains_pure _ trivial
    | none => exact Parse.gains_fail _ ⟨rfl, token, known, rfl⟩
  · exact operand fun token => .await "await" token.position
  · exact Parse.bind_gains _ _ cursor 1 (Parse.take_gains cursor within inside) fun _ _ => Parse.gains_pure _ trivial
  · refine Parse.bind_gains _ _ cursor 1 (Parse.take_gains cursor within inside) fun opening before => ?_
    exact Parse.gains_bind _ _ 0 (gains.expression 0) fun _ _ =>
      Parse.gains_bind _ _ 0 (Parse.gains_expect_closing opening before ")") fun _ _ => Parse.gains_pure _ trivial
  · refine Parse.bind_gains _ _ cursor 1 (Parse.take_gains cursor within inside) fun opening before => ?_
    exact Parse.gains_bind _ _ 0 (reader.list_gains gains opening before "]") fun _ _ => Parse.gains_pure _ trivial
  · exact operand fun token => .unary "unary" token.position (if token.text = "-" then .negate else .not)

theorem binary_gains (left : Node) (precedence : Nat) : (readBinary reader left precedence cursor).Gains tokens
    cursor.rest.length (reader.fuel + 1) 1 fun _ => True := by
  refine Parse.bind_gains _ _ cursor 1 (Parse.take_gains cursor within inside) fun token known => ?_
  cases BinaryOp.ofSymbol? token.text with
  | none => exact Parse.gains_fail _ ⟨rfl, token, known, rfl⟩
  | some op => exact Parse.gains_bind _ _ 0 (gains.expression precedence) fun _ _ => Parse.gains_pure _ trivial

theorem extend_gains (form : ExpressionForm) (member : form ∈ standard) (extend : Reader → Node → Nat → Parse Node)
    (extends_ : form.extend? = some extend) (left : Node) (precedence : Nat) :
    (extend reader left precedence cursor).Gains tokens cursor.rest.length (reader.fuel + 1) 1 fun _ => True := by
  have binary := binary_gains reader gains cursor within inside left precedence
  simp only [standard, List.mem_cons, List.not_mem_nil, or_false] at member
  rcases member with rfl | rfl | rfl | rfl | rfl | rfl | rfl | rfl | rfl | rfl | rfl | rfl | rfl | rfl | rfl
  all_goals cases extends_
  any_goals exact binary
  · refine Parse.bind_gains _ _ cursor 1 (Parse.take_gains cursor within inside) fun opening before => ?_
    exact Parse.gains_bind _ _ 0 (reader.list_gains gains opening before ")") fun _ _ => Parse.gains_pure _ trivial
  · refine Parse.bind_gains _ _ cursor 1 (Parse.take_gains cursor within inside) fun opening before => ?_
    exact Parse.gains_bind _ _ 0 (gains.expression 0) fun _ _ =>
      Parse.gains_bind _ _ 0 (Parse.gains_expect_closing opening before "]") fun _ _ => Parse.gains_pure _ trivial
  · refine Parse.bind_gains _ _ cursor 1 (Parse.take_gains cursor within inside) fun _ _ => ?_
    exact Parse.gains_bind _ _ 0 (Parse.gains_expect_name _) fun _ _ => Parse.gains_pure _ trivial
  · refine Parse.bind_gains _ _ cursor 1 (Parse.take_gains cursor within inside) fun token known => ?_
    cases left with
    | reference name position =>
      exact Parse.gains_bind _ _ 0 (gains.expression 0) fun _ _ => Parse.gains_pure _ trivial
    | _ => exact Parse.gains_fail _ ⟨rfl, token, known, rfl⟩

end ExpressionForm
end Inside

namespace StatementForm
include gains

theorem condition_gains : (condition reader).Gains tokens reader.fuel 1 fun _ => True := by
  refine Parse.gains_bind _ _ 1 (Parse.gains_expect .bracket "(" (by decide)) fun opening before => ?_
  refine Parse.gains_bind _ _ 0 ((gains.expression 0).weaken _ 0 (Nat.sub_le _ _) (Nat.zero_le _)) fun _ _ => ?_
  exact Parse.gains_bind _ _ 0 (Parse.gains_expect_closing opening before ")") fun _ _ => Parse.gains_pure _ trivial

theorem function_gains : (parseFunction reader).Gains tokens reader.fuel 1 fun _ => True := by
  refine Parse.gains_bind _ _ 1 Parse.gains_current fun _ _ => ?_
  refine Parse.gains_bind _ _ 1 (Parse.gains_take_if .word "async" (by decide)) fun _ _ => ?_
  refine Parse.gains_bind _ _ 1 (Parse.gains_expect .word "fn" (by decide)) fun _ _ => ?_
  refine Parse.gains_bind _ _ 0 (Parse.gains_expect_name _) fun name _ => ?_
  refine Parse.gains_bind _ _ 0 (Parse.gains_expect .bracket "(" (by decide)) fun opening before => ?_
  have names := reader.parameters_gains opening before name.text
  refine Parse.gains_bind _ _ 0 (names.weaken _ 0 (by omega) (Nat.le_refl _)) fun _ _ => ?_
  refine Parse.gains_bind _ _ 0 ((reader.block_gains gains).weaken _ 0 (by omega) (Nat.zero_le _)) fun _ _ => ?_
  exact Parse.gains_pure _ trivial

theorem block_gains : (parseBlock reader).Gains tokens reader.fuel 1 fun _ => True :=
  Parse.gains_bind _ _ 1 Parse.gains_current fun _ _ => Parse.gains_bind _ _ 1 (reader.block_gains gains) fun _ _ =>
    Parse.gains_pure _ trivial

section Inside
variable (cursor : Cursor) (within : cursor.Within tokens) (inside : cursor.atEnd = false)
include within inside

theorem return_gains : (parseReturn reader cursor).Gains tokens cursor.rest.length (reader.fuel + 1) 1 fun _ => True := by
  refine Parse.bind_gains _ _ cursor 1 (Parse.take_gains cursor within inside) fun _ _ => ?_
  refine Parse.gains_bind _ _ 0 (Parse.gains_ask _) fun bare _ => ?_
  by_cases empty : bare = true
  · rw [if_pos empty]
    exact Parse.gains_pure _ trivial
  · rw [if_neg empty]
    exact Parse.gains_bind _ _ 0 (gains.expression 0) fun _ _ => Parse.gains_pure _ trivial

theorem branch_gains : (parseIf reader cursor).Gains tokens cursor.rest.length (reader.fuel + 1) 1 fun _ => True := by
  refine Parse.bind_gains _ _ cursor 1 (Parse.take_gains cursor within inside) fun _ _ => ?_
  refine Parse.gains_bind _ _ 0 (condition_gains reader gains) fun _ _ => ?_
  refine Parse.gains_bind _ _ 0 (reader.body_gains gains) fun _ _ => ?_
  refine Parse.gains_bind _ _ 0 (Parse.gains_take_if .word "else" (by decide)) fun other _ => ?_
  by_cases further : other = true
  · rw [if_pos further]
    have otherwise : Parse.Gains tokens (reader.fuel - 2) 0 (fun _ => True) (some <$> reader.body) :=
      Parse.gains_bind _ _ 0 ((reader.body_gains gains).weaken _ 0 (by omega) (Nat.zero_le _)) fun _ _ =>
        Parse.gains_pure _ trivial
    exact Parse.gains_bind _ _ 0 otherwise fun _ _ => Parse.gains_pure _ trivial
  · rw [if_neg further]
    have nothing : Parse.Gains tokens (reader.fuel - 2) 0 (fun _ => True) (pure none : Parse (Option (List Node))) :=
      Parse.gains_pure none trivial
    exact Parse.gains_bind _ _ 0 nothing fun _ _ => Parse.gains_pure _ trivial

theorem loop_gains : (parseWhile reader cursor).Gains tokens cursor.rest.length (reader.fuel + 1) 1 fun _ => True := by
  refine Parse.bind_gains _ _ cursor 1 (Parse.take_gains cursor within inside) fun _ _ => ?_
  refine Parse.gains_bind _ _ 0 (condition_gains reader gains) fun _ _ => ?_
  exact Parse.gains_bind _ _ 0 (reader.body_gains gains) fun _ _ => Parse.gains_pure _ trivial

theorem parse_gains (form : StatementForm) (member : form ∈ standard) :
    (form.parse reader cursor).Gains tokens cursor.rest.length reader.fuel 1 fun _ => True := by
  simp only [standard, List.mem_cons, List.not_mem_nil, or_false] at member
  rcases member with rfl | rfl | rfl | rfl | rfl
  · exact function_gains reader gains cursor within
  · exact (return_gains reader gains cursor within inside).weaken _ 1 (Nat.le_succ _) (Nat.le_refl _)
  · exact (branch_gains reader gains cursor within inside).weaken _ 1 (Nat.le_succ _) (Nat.le_refl _)
  · exact (loop_gains reader gains cursor within inside).weaken _ 1 (Nat.le_succ _) (Nat.le_refl _)
  · exact block_gains reader gains cursor within

end Inside
end StatementForm

namespace Grammar
include gains

theorem statement_gains : (standard.statement reader).Gains tokens reader.fuel 1 fun _ => True := by
  refine Parse.gains_bind _ _ 1 Parse.gains_skip fun _ _ cursor within => ?_
  rw [Parse.cursor_then]
  cases found : standard.statements.find? fun form => form.applies cursor with
  | none => exact gains.expression 0 cursor within
  | some form =>
    have member := List.mem_of_find?_eq_some found
    have applies := List.find?_some found
    have inside := StatementForm.standard_inside form member cursor applies
    exact StatementForm.parse_gains reader gains cursor within inside form member

theorem extension_rounds (minimum : Nat) :
    Parse.Rounds tokens (reader.fuel + 1) (standard.extension reader minimum) := by
  intro left cursor within
  unfold extension
  rw [Parse.cursor_then]
  cases further : extending? minimum cursor standard.expressions with
  | none => exact .inl ⟨left, rfl⟩
  | some found =>
    obtain ⟨precedence, extend⟩ := found
    obtain ⟨form, member, extends_, _, _, applies⟩ := extending_found minimum cursor _ precedence extend further
    have inside := (ExpressionForm.standard_asks (.ending True) form member).inside cursor applies
    exact .inr (Parse.bind_gains _ _ cursor 1
      (ExpressionForm.extend_gains reader gains cursor within inside form member extend extends_ left precedence)
      fun _ _ => Parse.gains_pure _ trivial)

theorem expression_gains (minimum : Nat) :
    (standard.expression reader minimum).Gains tokens (reader.fuel + 1) 1 fun _ => True := by
  intro cursor within
  unfold expression
  rw [Parse.cursor_then]
  cases started : starting? cursor standard.expressions with
  | none => exact Parse.gains_unexpected "expression" cursor within
  | some begun =>
    obtain ⟨precedence, start⟩ := begun
    obtain ⟨form, member, starts, _, applies⟩ := starting_found cursor _ precedence start started
    have inside := (ExpressionForm.standard_asks (.ending True) form member).inside cursor applies
    refine Parse.bind_gains _ _ cursor 1
      (ExpressionForm.start_gains reader gains cursor within inside form member start starts precedence) fun first _ => ?_
    have rounds : Parse.Rounds tokens (reader.fuel + 1 - 1) (standard.extension reader minimum) :=
      fun left cursor within => (extension_rounds reader gains minimum left cursor within).imp_right fun gains =>
        gains.weaken _ 1 (Nat.le_succ _) (Nat.le_refl _)
    exact Parse.gains_iterate _ rounds _ (Nat.le_refl _) first

end Grammar

end Reading

theorem Reader.of_fuel_gains (tokens : List Token) (fuel : Nat) : (ofFuel Grammar.standard fuel).Gains tokens := by
  induction fuel with
  | zero => exact ⟨fun _ _ => Nat.zero_le _, fun _ _ _ => Nat.zero_le _⟩
  | succ fuel ih =>
    have statement := Grammar.statement_gains _ ih
    have expression := Grammar.expression_gains _ ih
    rw [of_fuel_fuel] at statement expression
    exact ⟨statement, expression⟩

-- What a reading comes to that begins at an index. If it gives something it goes on behind the index and no further
-- than to the end mark; if it is refused, that is at one of the tokens; and with more steps than tokens it has one or
-- the other.
def Parsed.Progresses {α : Type} (tokens : List Token) (fuel index : Nat) : Parsed α → Prop
  | .ok _ rest => ∃ later, index < later ∧ later < tokens.length ∧ rest.At tokens later
  | .failed diagnostic => diagnostic.Among tokens
  | .stalled => fuel ≤ tokens.length

theorem Parsed.gains_progresses {α : Type} (tokens : List Token) (fuel room index : Nat) (cursor : Cursor)
    (here : cursor.At tokens index) (fits : fuel ≤ room + 1) (good : α → Prop) (parsed : Parsed α)
    (gains : parsed.Gains tokens cursor.rest.length room 1 good) : parsed.Progresses tokens fuel index := by
  have length := cursor.at_length tokens index here
  cases parsed with
  | ok value rest =>
    obtain ⟨-, within, shorter⟩ := gains
    obtain ⟨later, there⟩ := rest.within_at tokens within
    have further := rest.at_length tokens later there
    exact ⟨later, by omega, by omega, there⟩
  | failed diagnostic => exact gains
  | stalled =>
    have full : room ≤ cursor.rest.length := gains
    show fuel ≤ tokens.length
    omega

/-- How a reader of the standard grammar gets on from a place among the tokens: with each of its readings, each form that
is tried before the end mark, and each round of its loops. -/
structure Reader.Progresses (tokens : List Token) (index : Nat) (cursor : Cursor) (reader : Reader) : Prop where
  statement : (reader.statement cursor).Progresses tokens reader.fuel index
  expression : ∀ minimum, (reader.expression minimum cursor).Progresses tokens reader.fuel index
  block : (reader.block cursor).Progresses tokens reader.fuel index
  body : (reader.body cursor).Progresses tokens reader.fuel index
  statementForm : ∀ form ∈ StatementForm.standard, form.applies cursor = true →
    (form.parse reader cursor).Progresses tokens reader.fuel index
  start : ∀ form ∈ ExpressionForm.standard, form.applies cursor = true → ∀ start, form.start? = some start →
    ∀ precedence, (start reader precedence cursor).Progresses tokens reader.fuel index
  extend : ∀ form ∈ ExpressionForm.standard, form.applies cursor = true → ∀ extend, form.extend? = some extend →
    ∀ left precedence, (extend reader left precedence cursor).Progresses tokens reader.fuel index
  programRound : ∀ items, (∃ lines, reader.programStep items cursor = .ok (.inr lines) cursor) ∨
    (reader.programStep items cursor).Progresses tokens reader.fuel index
  extensionRound : ∀ minimum left, (∃ node, Grammar.standard.extension reader minimum left cursor = .ok (.inr node) cursor) ∨
    (Grammar.standard.extension reader minimum left cursor).Progresses tokens reader.fuel index
  blockRound : ∀ opening ∈ tokens, ∀ items, (reader.blockStep opening items cursor).Progresses tokens reader.fuel index
  listRound : ∀ opening ∈ tokens, ∀ closing items,
    (reader.listStep opening closing items cursor).Progresses tokens reader.fuel index
  parameterRound : ∀ opening ∈ tokens, ∀ function names,
    (parameterStep function opening names cursor).Progresses tokens reader.fuel index

theorem Reader.gains_progress (tokens : List Token) (index : Nat) (cursor : Cursor) (closed : Token.Closed tokens)
    (here : cursor.At tokens index) (reader : Reader) (gains : reader.Gains tokens) :
    reader.Progresses tokens index cursor := by
  have within := cursor.at_within tokens index closed here
  have progresses {α : Type} (parsed : Parsed α) (room : Nat) (wide : reader.fuel ≤ room + 1)
      (gained : parsed.Gains tokens cursor.rest.length room 1 fun _ => True) :
      parsed.Progresses tokens reader.fuel index :=
    parsed.gains_progresses tokens reader.fuel room index cursor here wide _ gained
  have tight : reader.fuel ≤ reader.fuel - 1 + 1 := by omega
  have wide : reader.fuel ≤ reader.fuel + 1 := Nat.le_succ _
  have wider : reader.fuel ≤ reader.fuel + 1 + 1 := wide.trans (Nat.le_succ _)
  have asks (form : ExpressionForm) (member : form ∈ ExpressionForm.standard) :=
    (ExpressionForm.standard_asks (.ending True) form member).inside cursor
  exact
    { statement := progresses _ _ tight (gains.statement cursor within)
      expression := fun minimum => progresses _ _ wide (gains.expression minimum cursor within)
      block := progresses _ _ wide (reader.block_gains gains cursor within)
      body := progresses _ _ tight (reader.body_gains gains cursor within)
      statementForm := fun form member applies =>
        have inside := StatementForm.standard_inside form member cursor applies
        progresses _ _ wide (StatementForm.parse_gains reader gains cursor within inside form member)
      start := fun form member applies start starts precedence => progresses _ _ wider
        (ExpressionForm.start_gains reader gains cursor within (asks form member applies) form member start starts precedence)
      extend := fun form member applies extend extends_ left precedence => progresses _ _ wider
        (ExpressionForm.extend_gains reader gains cursor within (asks form member applies) form member extend extends_ left
          precedence)
      programRound := fun items => (reader.program_step_rounds gains items cursor within).imp_right (progresses _ _ tight)
      extensionRound := fun minimum left =>
        (Grammar.extension_rounds reader gains minimum left cursor within).imp_right (progresses _ _ wider)
      blockRound := fun opening before items =>
        progresses _ _ tight (reader.block_step_gains gains opening before items cursor within)
      listRound := fun opening before closing items =>
        progresses _ _ wide (reader.list_step_gains gains opening before closing items cursor within)
      parameterRound := fun opening before function names =>
        progresses _ _ wide (parameter_step_gains opening before _ function names cursor within) }

namespace Grammar

/-- Tokens that end with an end mark, and have no other, are read from every place to one further on that is not behind
the end mark, by every reading, form and round of a loop of the standard grammar, with any allowance of steps; one step
more than there are tokens is enough. So a program is read, or it is refused at one of its tokens. -/
theorem standard_progresses (tokens : List Token) (closed : Token.Closed tokens) :
    (∀ fuel index cursor, cursor.At tokens index → (Reader.ofFuel standard fuel).Progresses tokens index cursor) ∧
      ((∃ lines rest, standard.parse tokens = .ok lines rest) ∨
        ∃ diagnostic, standard.parse tokens = .failed diagnostic ∧ diagnostic.Among tokens) := by
  refine ⟨fun fuel index cursor here =>
    Reader.gains_progress tokens index cursor closed here _ (Reader.of_fuel_gains tokens fuel), ?_⟩
  cases tokens with
  | nil =>
    obtain ⟨front, stop, split, -⟩ := closed
    cases front <;> cases split
  | cons current rest =>
    have within := Cursor.at_within _ 0 ⟨current, rest⟩ closed rfl
    have gains := Reader.program_gains _ (Reader.of_fuel_gains _ (allowance (current :: rest))) _ within
    have same : standard.parse (current :: rest) =
        (Reader.ofFuel standard (allowance (current :: rest))).program ⟨current, rest⟩ := rfl
    rw [← same, Reader.of_fuel_fuel] at gains
    cases parsed : standard.parse (current :: rest) with
    | ok lines last => exact .inl ⟨lines, last, rfl⟩
    | failed diagnostic =>
      rw [parsed] at gains
      exact .inr ⟨diagnostic, rfl, gains⟩
    | stalled =>
      -- The allowance is larger than the tokens can take up.
      rw [parsed] at gains
      have full : allowance (current :: rest) - 1 ≤ rest.length := gains
      simp only [allowance, List.length_cons] at full
      omega

-- An operand within a bracket that is left open is read up to the end mark, and then the bracket is to blame.
theorem standard_progresses_open : ∃ tokens cursor rest diagnostic,
    tokens = [.word "a", .symbol "-", ⟨.bracket, "(", ⟨1, 5, 4, none⟩⟩, .word "b", .finish] ∧ Token.Closed tokens ∧
      cursor.At tokens 3 ∧ (Reader.ofFuel standard 6).expression 0 cursor = .ok (.reference "b" default) rest ∧
      (∃ later, 3 < later ∧ later < tokens.length ∧ rest.At tokens later) ∧
      standard.parse tokens = .failed diagnostic ∧ diagnostic.Among tokens ∧ diagnostic.position = some ⟨1, 5, 4, none⟩ := by
  let tokens : List Token := [.word "a", .symbol "-", ⟨.bracket, "(", ⟨1, 5, 4, none⟩⟩, .word "b", .finish]
  have closed : Token.Closed tokens := ⟨tokens.dropLast, .finish, rfl, rfl, by decide⟩
  have here : Cursor.At tokens 3 ⟨.word "b", [.finish]⟩ := rfl
  have read : (Reader.ofFuel standard 6).expression 0 ⟨.word "b", [.finish]⟩ =
      .ok (.reference "b" default) ⟨.finish, []⟩ := by rfl
  have refused : standard.parse tokens =
      .failed ⟨.unmatched "(", some ⟨1, 5, 4, none⟩, [.expectedClosing ")"]⟩ := by rfl
  obtain ⟨progresses, ended⟩ := standard_progresses tokens closed
  have operand := (progresses 6 3 _ here).expression 0
  rw [read] at operand
  rcases ended with ⟨lines, last, parsed⟩ | ⟨diagnostic, failed, among⟩
  · cases parsed.symm.trans refused
  · cases failed.symm.trans refused
    exact ⟨tokens, _, _, _, rfl, closed, here, read, operand, refused, among, rfl⟩

end Grammar

end CoopScript
