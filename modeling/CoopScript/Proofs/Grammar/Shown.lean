import CoopScript.Proofs.Grammar.Image
import CoopScript.Proofs.Grammar.Canonical

set_option autoImplicit false
namespace CoopScript

namespace Parse

theorem take_put (token : Token) (rest : Cursor) (further : token.kind ≠ .finish) :
    take (rest.put token) = .ok token rest := by
  simp only [take, Cursor.advance_put token rest further, Cursor.put_current]

theorem take_if_yes (question : Cursor → Bool) (token : Token) (rest : Cursor) (further : token.kind ≠ .finish)
    (yes : question (rest.put token) = true) : takeIf question (rest.put token) = .ok true rest := by
  simp only [takeIf, yes, if_true, Cursor.advance_put token rest further]

theorem take_if_no (question : Cursor → Bool) (cursor : Cursor) (no : question cursor = false) :
    takeIf question cursor = .ok false cursor := by
  simp [takeIf, no]

theorem expect_bracket (text : String) (rest : Cursor) :
    expect .bracket text (rest.put (.bracket text)) = .ok (.bracket text) rest := by
  have here : (Token.bracket text).is .bracket text = true := by simp [Token.is, Token.bracket]
  exact (if_pos here).trans (take_put _ rest (by rintro ⟨⟩))

theorem expect_closing (opening : Token) (closing : String) (rest : Cursor) :
    expectClosing opening closing (rest.put (.bracket closing)) = .ok (.bracket closing) rest := by
  have here : (rest.put (.bracket closing)).isBracket closing = true := by
    simp [Cursor.isBracket, Token.is, Token.bracket, Cursor.put]
  exact (if_pos here).trans (take_put _ rest (by rintro ⟨⟩))

theorem expect_word (text : String) (rest : Cursor) :
    expect .word text (rest.put (.word text)) = .ok (.word text) rest := by
  have here : (Token.word text).is .word text = true := by simp [Token.is, Token.word]
  exact (if_pos here).trans (take_put _ rest (by rintro ⟨⟩))

theorem expect_name (what name : String) (rest : Cursor) (free : name ∉ keywords) :
    expectName what (rest.put (.word name)) = .ok (.word name) rest := by
  have here : (rest.put (.word name)).isName = true := by
    simp [Cursor.isName, Cursor.isKind, Cursor.put, Token.word, free]
  exact (if_pos here).trans (take_put _ rest (by rintro ⟨⟩))

end Parse

namespace Cursor

theorem Tight.loosen {cursor : Cursor} (tight : cursor.Tight (some 0)) (limit : Limit) : cursor.Tight limit :=
  fun form member extends_ applies least _ => Nat.le_trans (tight form member extends_ applies 0 rfl) (Nat.zero_le least)

theorem tight_shown (cursor : Cursor) (limit : Limit)
    (opening : cursor.isBracket "(" = true ∨ cursor.isBracket "[" = true → limit.Allows Precedence.postfixed)
    (member : cursor.isSymbol "." = true → limit.Allows Precedence.postfixed)
    (operator : ∀ op, cursor.isKind .symbol = true → BinaryOp.ofSymbol? cursor.current.text = some op →
      limit.Allows op.precedence)
    (equals : cursor.isSymbol "=" = true → limit.Allows Precedence.assignment) : cursor.Tight limit := by
  intro form known extends_ applies
  obtain ⟨extend, extending⟩ := Option.isSome_iff_exists.mp extends_
  rcases ExpressionForm.extend_cases form known cursor applies extend extending with
    ⟨_, same, shown⟩ | ⟨_, same, shown⟩ | ⟨_, same, shown⟩ | ⟨_, same, shown⟩ | ⟨_, shown, op, read, same⟩
  · rw [same]
    exact opening (.inl shown)
  · rw [same]
    exact opening (.inr shown)
  · rw [same]
    exact member shown
  · rw [same]
    exact equals shown
  · rw [← same]
    exact operator op shown read

theorem tight_separator (cursor : Cursor) (separator : cursor.isKind .separator = true) : cursor.Tight (some 0) := by
  simp only [isKind, decide_eq_true_eq] at separator
  refine cursor.tight_shown (some 0) ?_ ?_ ?_ ?_
  all_goals simp [isBracket, isSymbol, isKind, Token.is, separator]

theorem tight_comma (rest : Cursor) : (rest.put (.symbol ",")).Tight (some 0) := by
  refine tight_shown _ (some 0) (by simp [isBracket, Token.is, put, Token.symbol])
    (by simp [isSymbol, Token.is, put, Token.symbol]) (fun op _ read => ?_)
    (by simp [isSymbol, Token.is, put, Token.symbol])
  cases op <;> cases read

theorem tight_closing (rest : Cursor) (closing : String) (known : closing ∈ [")", "]"]) :
    (rest.put (.bracket closing)).Tight (some 0) := by
  refine tight_shown _ (some 0) (fun shown => ?_) (by simp [isSymbol, Token.is, put, Token.bracket])
    (by simp [isKind, put, Token.bracket]) (by simp [isSymbol, Token.is, put, Token.bracket])
  simp only [List.mem_cons, List.not_mem_nil, or_false] at known
  rcases known with rfl | rfl
  all_goals simp [isBracket, Token.is, put, Token.bracket] at shown

theorem tight_opening (rest : Cursor) (opening : String) (limit : Limit) (above : limit.Allows Precedence.postfixed) :
    (rest.put (.bracket opening)).Tight limit :=
  tight_shown _ limit (fun _ => above) (by simp [isSymbol, Token.is, put, Token.bracket])
    (by simp [isKind, put, Token.bracket]) (by simp [isSymbol, Token.is, put, Token.bracket])

theorem tight_point (rest : Cursor) (limit : Limit) (above : limit.Allows Precedence.postfixed) :
    (rest.put (.symbol ".")).Tight limit := by
  refine tight_shown _ limit (by simp [isBracket, Token.is, put, Token.symbol]) (fun _ => above)
    (fun op _ read => ?_) (by simp [isSymbol, Token.is, put, Token.symbol])
  cases op <;> cases read

theorem tight_operator (rest : Cursor) (op : BinaryOp) (limit : Limit) (above : limit.Allows op.precedence) :
    (rest.put (.symbol op.symbol)).Tight limit := by
  refine tight_shown _ limit (by simp [isBracket, Token.is, put, Token.symbol]) (fun shown => ?_)
    (fun other _ read => ?_) (fun shown => ?_)
  · cases op <;> simp [isSymbol, Token.is, put, Token.symbol, BinaryOp.symbol] at shown
  · cases (BinaryOp.ofSymbol?_symbol op).symm.trans read
    exact above
  · cases op <;> simp [isSymbol, Token.is, put, Token.symbol, BinaryOp.symbol] at shown

end Cursor

namespace Grammar

-- What starts an expression at a token, and what goes on at one.
theorem starting_number (text : String) (position : Position) (rest : Cursor) :
    starting? (rest.put ⟨.number, text, position⟩) ExpressionForm.standard =
      some (Precedence.postfixed, ExpressionForm.readNumber) := rfl

theorem starting_text (text : String) (position : Position) (rest : Cursor) :
    starting? (rest.put ⟨.text, text, position⟩) ExpressionForm.standard =
      some (Precedence.postfixed, ExpressionForm.readText) := rfl

theorem starting_await (rest : Cursor) : starting? (rest.put (.word "await")) ExpressionForm.standard =
    some (Precedence.unary, ExpressionForm.readAwait) := rfl

theorem starting_name (name : String) (rest : Cursor) (free : name ∉ keywords) :
    starting? (rest.put (.word name)) ExpressionForm.standard =
      some (Precedence.postfixed, ExpressionForm.readReference) := by
  have notAwait : name ≠ "await" := fun same => free (same ▸ by decide)
  simp [starting?, ExpressionForm.standard, ExpressionForm.text, ExpressionForm.number, ExpressionForm.await,
    ExpressionForm.reference, ExpressionForm.starting, Cursor.isKind, Cursor.isWord, Cursor.isName, Cursor.put,
    Token.word, Token.is, notAwait, free]

theorem starting_group (rest : Cursor) : starting? (rest.put (.bracket "(")) ExpressionForm.standard =
    some (Precedence.postfixed, ExpressionForm.readGroup) := rfl

theorem starting_array (rest : Cursor) : starting? (rest.put (.bracket "[")) ExpressionForm.standard =
    some (Precedence.postfixed, ExpressionForm.readArray) := rfl

theorem starting_unary (op : UnaryOp) (rest : Cursor) :
    starting? (rest.put (.symbol op.symbol)) ExpressionForm.standard =
      some (Precedence.unary, ExpressionForm.readUnary) := by
  cases op <;> rfl

theorem extending_one (minimum : Nat) (cursor : Cursor) (form : ExpressionForm) (member : form ∈ ExpressionForm.standard)
    (extend : Reader → Node → Nat → Parse Node) (extends_ : form.extend? = some extend)
    (applies : form.applies cursor = true) (loose : minimum < form.precedence)
    (only : ∀ other ∈ ExpressionForm.standard, ∀ another, other.extend? = some another → other.applies cursor = true →
      other.precedence = form.precedence ∧ another = extend) :
    extending? minimum cursor ExpressionForm.standard = some (form.precedence, extend) := by
  cases found : extending? minimum cursor ExpressionForm.standard with
  | none =>
    have bound := (extending_none minimum cursor _).mp found form member (by simp [extends_]) applies
    exact absurd loose (by omega)
  | some entry =>
    obtain ⟨other, known, extending, same, _, shown⟩ := extending_found minimum cursor _ entry.1 entry.2 found
    obtain ⟨precedence, reading⟩ := only other known entry.2 extending shown
    rw [← precedence, same, ← reading]

theorem extending_call (minimum : Nat) (rest : Cursor) (loose : minimum < Precedence.postfixed) :
    extending? minimum (rest.put (.bracket "(")) ExpressionForm.standard =
      some (Precedence.postfixed, ExpressionForm.readCall) := by
  refine extending_one minimum _ .bracket (by simp [ExpressionForm.standard]) _ rfl rfl loose ?_
  intro other known another extending shown
  rcases ExpressionForm.extend_cases other known _ shown another extending with
    ⟨rfl, same, _⟩ | ⟨_, _, away⟩ | ⟨_, _, away⟩ | ⟨_, _, away⟩ | ⟨_, away, _⟩
  · exact ⟨same, rfl⟩
  all_goals cases away

theorem extending_index (minimum : Nat) (rest : Cursor) (loose : minimum < Precedence.postfixed) :
    extending? minimum (rest.put (.bracket "[")) ExpressionForm.standard =
      some (Precedence.postfixed, ExpressionForm.readIndex) := by
  refine extending_one minimum _ .array (by simp [ExpressionForm.standard]) _ rfl rfl loose ?_
  intro other known another extending shown
  rcases ExpressionForm.extend_cases other known _ shown another extending with
    ⟨_, _, away⟩ | ⟨rfl, same, _⟩ | ⟨_, _, away⟩ | ⟨_, _, away⟩ | ⟨_, away, _⟩
  · cases away
  · exact ⟨same, rfl⟩
  all_goals cases away

theorem extending_access (minimum : Nat) (rest : Cursor) (loose : minimum < Precedence.postfixed) :
    extending? minimum (rest.put (.symbol ".")) ExpressionForm.standard =
      some (Precedence.postfixed, ExpressionForm.readAccess) := by
  refine extending_one minimum _ .access (by simp [ExpressionForm.standard]) _ rfl rfl loose ?_
  intro other known another extending shown
  rcases ExpressionForm.extend_cases other known _ shown another extending with
    ⟨_, _, away⟩ | ⟨_, _, away⟩ | ⟨rfl, same, _⟩ | ⟨_, _, away⟩ | ⟨_, _, op, away, _⟩
  · cases away
  · cases away
  · exact ⟨same, rfl⟩
  · cases away
  · cases op <;> cases away

theorem extending_assign (minimum : Nat) (rest : Cursor) (loose : minimum < Precedence.assignment) :
    extending? minimum (rest.put (.symbol "=")) ExpressionForm.standard =
      some (Precedence.assignment, ExpressionForm.readAssign) := by
  refine extending_one minimum _ .assign (by simp [ExpressionForm.standard]) _ rfl rfl loose ?_
  intro other known another extending shown
  rcases ExpressionForm.extend_cases other known _ shown another extending with
    ⟨_, _, away⟩ | ⟨_, _, away⟩ | ⟨_, _, away⟩ | ⟨rfl, same, _⟩ | ⟨_, _, op, away, _⟩
  · cases away
  · cases away
  · cases away
  · exact ⟨same, rfl⟩
  · cases op <;> cases away

theorem extending_binary (op : BinaryOp) (minimum : Nat) (rest : Cursor) (loose : minimum < op.precedence) :
    extending? minimum (rest.put (.symbol op.symbol)) ExpressionForm.standard =
      some (op.precedence, ExpressionForm.readBinary) := by
  have form : ∃ form ∈ ExpressionForm.standard, form.precedence = op.precedence ∧
      form.extend? = some ExpressionForm.readBinary ∧ form.applies (rest.put (.symbol op.symbol)) = true := by
    cases op
    case either => exact ⟨.either, by simp [ExpressionForm.standard], rfl, rfl, rfl⟩
    case both => exact ⟨.both, by simp [ExpressionForm.standard], rfl, rfl, rfl⟩
    case equal | notEqual => exact ⟨.equality, by simp [ExpressionForm.standard], rfl, rfl, rfl⟩
    case less | lessEqual | greater | greaterEqual =>
      exact ⟨.comparison, by simp [ExpressionForm.standard], rfl, rfl, rfl⟩
    case add | sub => exact ⟨.term, by simp [ExpressionForm.standard], rfl, rfl, rfl⟩
    case mul | div | mod => exact ⟨.factor, by simp [ExpressionForm.standard], rfl, rfl, rfl⟩
  obtain ⟨form, member, same, extends_, applies⟩ := form
  rw [← same] at loose ⊢
  refine extending_one minimum _ form member _ extends_ applies loose ?_
  intro other known another extending shown
  rcases ExpressionForm.extend_cases other known _ shown another extending with
    ⟨_, _, away⟩ | ⟨_, _, away⟩ | ⟨_, _, away⟩ | ⟨_, _, away⟩ | ⟨rfl, _, found, read, precedence⟩
  · cases away
  · cases away
  · cases op <;> cases away
  · cases op <;> cases away
  · cases (BinaryOp.ofSymbol?_symbol op).symm.trans read
    exact ⟨precedence.symm.trans same.symm, rfl⟩

end Grammar

end CoopScript
