import CoopScript.Proofs.Grammar.Form

set_option autoImplicit false
namespace CoopScript

-- An expression that was read on behalf of a minimum, up to a cursor at which nothing inside it goes on.
structure Node.Stands (node : Node) (minimum : Nat) (rest : Cursor) : Prop where
  expression : node.Expression
  tighter : node.grip.Exceeds minimum
  closed : rest.Tight node.edge

structure Reader.Sound (reader : Reader) : Prop where
  statement : ∀ cursor node rest, reader.statement cursor = .ok node rest → node.Statement
  expression : ∀ minimum cursor node rest, reader.expression minimum cursor = .ok node rest →
    node.Stands minimum rest ∧ rest.Tight (some minimum)

namespace ExpressionForm

theorem symbol_read (symbols : List String) (precedence : Nat)
    (known : ∀ symbol ∈ symbols, ∃ op, BinaryOp.ofSymbol? symbol = some op ∧ op.precedence = precedence)
    (cursor : Cursor) (applies : isAnySymbol symbols cursor = true) :
    cursor.isKind .symbol = true ∧
      ∃ op, BinaryOp.ofSymbol? cursor.current.text = some op ∧ op.precedence = precedence := by
  obtain ⟨symbol, member, here⟩ := List.any_eq_true.mp applies
  simp only [Cursor.isSymbol, Token.is, Bool.and_eq_true, decide_eq_true_eq] at here
  exact ⟨decide_eq_true here.1, here.2 ▸ known symbol member⟩

theorem extend_cases (form : ExpressionForm) (member : form ∈ standard) (cursor : Cursor)
    (applies : form.applies cursor = true) (extend : Reader → Node → Nat → Parse Node)
    (extending : form.extend? = some extend) :
    (extend = readCall ∧ form.precedence = Precedence.postfixed ∧ cursor.isBracket "(" = true) ∨
      (extend = readIndex ∧ form.precedence = Precedence.postfixed ∧ cursor.isBracket "[" = true) ∨
      (extend = readAccess ∧ form.precedence = Precedence.postfixed ∧ cursor.isSymbol "." = true) ∨
      (extend = readAssign ∧ form.precedence = Precedence.assignment ∧ cursor.isSymbol "=" = true) ∨
      (extend = readBinary ∧ cursor.isKind .symbol = true ∧
        ∃ op, BinaryOp.ofSymbol? cursor.current.text = some op ∧ op.precedence = form.precedence) := by
  simp only [standard, List.mem_cons, List.not_mem_nil, or_false] at member
  rcases member with rfl | rfl | rfl | rfl | rfl | rfl | rfl | rfl | rfl | rfl | rfl | rfl | rfl | rfl | rfl
  all_goals cases extending
  · exact .inl ⟨rfl, rfl, applies⟩
  · exact .inr (.inl ⟨rfl, rfl, applies⟩)
  · exact .inr (.inr (.inl ⟨rfl, rfl, applies⟩))
  · exact .inr (.inr (.inr (.inr ⟨rfl, symbol_read _ _ (by decide) cursor applies⟩)))
  · exact .inr (.inr (.inr (.inr ⟨rfl, symbol_read _ _ (by decide) cursor applies⟩)))
  · exact .inr (.inr (.inr (.inr ⟨rfl, symbol_read _ _ (by decide) cursor applies⟩)))
  · exact .inr (.inr (.inr (.inr ⟨rfl, symbol_read _ _ (by decide) cursor applies⟩)))
  · exact .inr (.inr (.inr (.inr ⟨rfl, symbol_read _ _ (by decide) cursor applies⟩)))
  · exact .inr (.inr (.inr (.inr ⟨rfl, symbol_read _ _ (by decide) cursor applies⟩)))
  · exact .inr (.inr (.inr (.inl ⟨rfl, rfl, applies⟩)))

theorem start_cases (form : ExpressionForm) (member : form ∈ standard) (cursor : Cursor)
    (applies : form.applies cursor = true) (start : Reader → Nat → Parse Node)
    (starting : form.start? = some start) :
    start = readText ∨ start = readNumber ∨ start = readAwait ∧ form.precedence = Precedence.unary ∨
      start = readReference ∧ cursor.isName = true ∨ start = readGroup ∨ start = readArray ∨
      start = readUnary ∧ form.precedence = Precedence.unary := by
  simp only [standard, List.mem_cons, List.not_mem_nil, or_false] at member
  rcases member with rfl | rfl | rfl | rfl | rfl | rfl | rfl | rfl | rfl | rfl | rfl | rfl | rfl | rfl | rfl
  all_goals cases starting
  · exact .inl rfl
  · exact .inr (.inl rfl)
  · exact .inr (.inr (.inl ⟨rfl, rfl⟩))
  · exact .inr (.inr (.inr (.inl ⟨rfl, applies⟩)))
  · exact .inr (.inr (.inr (.inr (.inl rfl))))
  · exact .inr (.inr (.inr (.inr (.inr (.inl rfl)))))
  · exact .inr (.inr (.inr (.inr (.inr (.inr ⟨rfl, rfl⟩)))))

end ExpressionForm

section Reading
variable (reader : Reader) (sound : reader.Sound)
include sound

namespace Reader

theorem list_step_ok (opening : Token) (closing : String) (items : List Node) (cursor rest : Cursor)
    (result : List Node ⊕ List Node) (ok : reader.listStep opening closing items cursor = .ok result rest) :
    ∃ item, item.Expression ∧ (result = .inl (item :: items) ∨ result = .inr (item :: items).reverse) := by
  obtain ⟨_, item, read, later⟩ := Parse.ok_of_bind _ _ _ _ _ ok
  obtain ⟨_, more, _, decided⟩ := Parse.ok_of_bind _ _ _ _ _ later
  refine ⟨item, (sound.expression _ _ _ _ read).1.expression, ?_⟩
  cases more with
  | true =>
    cases decided
    exact .inl rfl
  | false =>
    obtain ⟨_, _, _, ended⟩ := Parse.ok_of_bind _ _ _ _ _ decided
    cases ended
    exact .inr rfl

theorem list_sound (opening : Token) (closing : String) (cursor rest : Cursor) (items : List Node)
    (ok : reader.list opening closing cursor = .ok items rest) : ∀ item ∈ items, item.Expression := by
  rw [list_rounds] at ok
  obtain ⟨middle, empty, _, further⟩ := Parse.ok_of_bind _ _ cursor rest items ok
  cases empty with
  | true =>
    cases further
    exact fun _ member => nomatch member
  | false =>
    refine Parse.iterate_ok (fun items _ => ∀ item ∈ items, item.Expression) (fun items _ => ∀ item ∈ items, item.Expression)
      _ ?_ ?_ _ [] middle rest items (fun _ member => nomatch member) further
    · intro before cursor next rest earlier round
      obtain ⟨item, expression, same | same⟩ := reader.list_step_ok sound opening closing before cursor rest _ round
      all_goals cases same
      exact List.forall_mem_cons.mpr ⟨expression, earlier⟩
    · intro before cursor value rest earlier round
      obtain ⟨item, expression, same | same⟩ := reader.list_step_ok sound opening closing before cursor rest _ round
      all_goals cases same
      intro other member
      exact (List.forall_mem_cons.mpr ⟨expression, earlier⟩) other (List.mem_reverse.mp member)

theorem block_step_ok (opening : Token) (items : List Node) (cursor rest : Cursor) (result : List Node ⊕ List Node)
    (ok : reader.blockStep opening items cursor = .ok result rest) :
    result = .inr items.reverse ∨ ∃ item, item.Statement ∧ result = .inl (item :: items) := by
  obtain ⟨_, _, _, skipped⟩ := Parse.ok_of_bind _ _ _ _ _ ok
  obtain ⟨_, closed, _, decided⟩ := Parse.ok_of_bind _ _ _ _ _ skipped
  cases closed with
  | true =>
    cases decided
    exact .inl rfl
  | false =>
    obtain ⟨middle, ended, _, further⟩ := Parse.ok_of_bind _ _ _ _ _ decided
    cases ended with
    | true => cases further
    | false =>
      obtain ⟨_, item, read, last⟩ := Parse.ok_of_bind _ _ _ _ _ further
      cases last
      exact .inr ⟨item, sound.statement _ _ _ read, rfl⟩

theorem block_sound (cursor rest : Cursor) (lines : List Node) (ok : reader.block cursor = .ok lines rest) :
    ∀ line ∈ lines, line.Statement := by
  rw [block_rounds] at ok
  obtain ⟨middle, opening, _, further⟩ := Parse.ok_of_bind _ _ cursor rest lines ok
  refine Parse.iterate_ok (fun items _ => ∀ item ∈ items, item.Statement) (fun items _ => ∀ item ∈ items, item.Statement)
    _ ?_ ?_ _ [] middle rest lines (fun _ member => nomatch member) further
  · intro before cursor next rest earlier round
    rcases reader.block_step_ok sound opening before cursor rest _ round with same | ⟨item, statement, same⟩
    all_goals cases same
    exact List.forall_mem_cons.mpr ⟨statement, earlier⟩
  · intro before cursor value rest earlier round
    rcases reader.block_step_ok sound opening before cursor rest _ round with same | ⟨item, statement, same⟩
    all_goals cases same
    exact fun line member => earlier line (List.mem_reverse.mp member)

theorem body_sound (cursor rest : Cursor) (lines : List Node) (ok : reader.body cursor = .ok lines rest) :
    ∀ line ∈ lines, line.Statement := by
  obtain ⟨middle, braced, _, further⟩ := Parse.ok_of_bind _ _ cursor rest lines ok
  cases braced with
  | true => exact reader.block_sound sound middle rest lines further
  | false =>
    obtain ⟨_, line, read, last⟩ := Parse.ok_of_bind _ _ _ _ _ further
    cases last
    exact List.forall_mem_singleton.mpr (sound.statement _ _ _ read)

theorem program_step_ok (items : List Node) (cursor rest : Cursor) (result : List Node ⊕ List Node)
    (ok : reader.programStep items cursor = .ok result rest) :
    result = .inr items.reverse ∨ ∃ item, item.Statement ∧ result = .inl (item :: items) := by
  obtain ⟨_, ended, _, further⟩ := Parse.ok_of_bind _ _ _ _ _ ok
  cases ended with
  | true =>
    cases further
    exact .inl rfl
  | false =>
    obtain ⟨_, item, read, skipped⟩ := Parse.ok_of_bind _ _ _ _ _ further
    obtain ⟨_, _, _, last⟩ := Parse.ok_of_bind _ _ _ _ _ skipped
    cases last
    exact .inr ⟨item, sound.statement _ _ _ read, rfl⟩

theorem program_sound (cursor rest : Cursor) (lines : List Node) (ok : reader.program cursor = .ok lines rest) :
    ∀ line ∈ lines, line.Statement := by
  rw [program_rounds] at ok
  obtain ⟨middle, _, _, further⟩ := Parse.ok_of_bind _ _ cursor rest lines ok
  refine Parse.iterate_ok (fun items _ => ∀ item ∈ items, item.Statement) (fun items _ => ∀ item ∈ items, item.Statement)
    _ ?_ ?_ _ [] middle rest lines (fun _ member => nomatch member) further
  · intro before cursor next rest earlier round
    rcases reader.program_step_ok sound before cursor rest _ round with same | ⟨item, statement, same⟩
    all_goals cases same
    exact List.forall_mem_cons.mpr ⟨statement, earlier⟩
  · intro before cursor value rest earlier round
    rcases reader.program_step_ok sound before cursor rest _ round with same | ⟨item, statement, same⟩
    all_goals cases same
    exact fun line member => earlier line (List.mem_reverse.mp member)

omit sound in
theorem parameter_step_ok (function : String) (opening : Token) (names : List String) (cursor rest : Cursor)
    (result : List String ⊕ List String) (ok : parameterStep function opening names cursor = .ok result rest) :
    ∃ name, name ∉ keywords ∧ name ∉ names ∧ (result = .inl (names ++ [name]) ∨ result = .inr (names ++ [name])) := by
  obtain ⟨middle, token, named, checked⟩ := Parse.ok_of_bind _ _ _ _ _ ok
  obtain ⟨free, rfl, rfl⟩ := Parse.expect_name_ok _ _ _ _ named
  by_cases known : names.contains cursor.current.text = true
  · simp only [known, if_true] at checked
    cases checked
  · simp only [known] at checked
    obtain ⟨_, more, _, decided⟩ := Parse.ok_of_bind _ _ _ _ _ checked
    refine ⟨cursor.current.text, free, by simpa using known, ?_⟩
    cases more with
    | true =>
      cases decided
      exact .inl rfl
    | false =>
      obtain ⟨_, _, _, ended⟩ := Parse.ok_of_bind _ _ _ _ _ decided
      cases ended
      exact .inr rfl

omit sound in
theorem parameters_sound (function : String) (opening : Token) (cursor rest : Cursor) (names : List String)
    (ok : StatementForm.parameters reader function opening cursor = .ok names rest) :
    (∀ name ∈ names, name ∉ keywords) ∧ names.Nodup := by
  rw [parameter_rounds] at ok
  obtain ⟨middle, empty, _, further⟩ := Parse.ok_of_bind _ _ cursor rest names ok
  cases empty with
  | true =>
    cases further
    exact ⟨(fun _ member => nomatch member), List.nodup_nil⟩
  | false =>
    have longer : ∀ (names : List String) (name : String), ((∀ name ∈ names, name ∉ keywords) ∧ names.Nodup) →
        name ∉ keywords → name ∉ names → (∀ other ∈ names ++ [name], other ∉ keywords) ∧ (names ++ [name]).Nodup := by
      intro names name earlier free new
      refine ⟨fun other member => ?_, ?_⟩
      · rcases List.mem_append.mp member with old | last
        · exact earlier.1 other old
        · exact List.mem_singleton.mp last ▸ free
      · exact (List.perm_append_singleton name names).nodup_iff.mpr (List.nodup_cons.mpr ⟨new, earlier.2⟩)
    refine Parse.iterate_ok (fun names _ => (∀ name ∈ names, name ∉ keywords) ∧ names.Nodup)
      (fun names _ => (∀ name ∈ names, name ∉ keywords) ∧ names.Nodup)
      _ ?_ ?_ _ [] middle rest names ⟨(fun _ member => nomatch member), List.nodup_nil⟩ further
    all_goals
      intro before cursor next rest earlier round
      obtain ⟨name, free, new, same | same⟩ := parameter_step_ok function opening before cursor rest _ round
      all_goals cases same
      exact longer before name earlier free new

end Reader

namespace Grammar

-- What no operator can take apart from the left stands wherever it ends.
omit sound in
theorem closed_stands (node : Node) (minimum : Nat) (rest : Cursor) (expression : node.Expression)
    (edge : node.edge = none) (grip : node.grip = none) : node.Stands minimum rest :=
  ⟨expression, grip ▸ Limit.exceeds_none minimum, edge ▸ rest.tight_none⟩

theorem start_stands (minimum : Nat) (cursor rest : Cursor) (precedence : Nat)
    (start : Reader → Nat → Parse Node) (node : Node)
    (found : starting? cursor ExpressionForm.standard = some (precedence, start))
    (ok : start reader precedence cursor = .ok node rest) : node.Stands minimum rest := by
  obtain ⟨form, member, starts, rfl, applies⟩ := starting_found cursor _ precedence start found
  have prefixed : ∀ (operand : Node) (middle : Cursor), operand.Stands Precedence.unary middle ∧ middle.Tight (some Precedence.unary) →
      middle.Tight (operand.edge.lowered Precedence.unary) := fun operand middle facts =>
    (middle.tight_lowered _ _).mpr ⟨facts.2, facts.1.closed⟩
  rcases ExpressionForm.start_cases form member cursor applies start starts with
    rfl | rfl | ⟨rfl, same⟩ | ⟨rfl, named⟩ | rfl | rfl | ⟨rfl, same⟩
  · cases ok
    exact closed_stands _ minimum _ (.text _) rfl rfl
  · unfold ExpressionForm.readNumber at ok
    obtain ⟨_, token, took, read⟩ := Parse.ok_of_bind _ _ _ _ _ ok
    cases value : Number.read? token.text with
    | none =>
      simp only [value] at read
      cases read
    | some x =>
      simp only [value] at read
      cases read
      exact closed_stands _ minimum _ (.number x ⟨token.text, value⟩) rfl rfl
  · rw [same] at ok
    obtain ⟨_, _, _, further⟩ := Parse.ok_of_bind _ _ _ _ _ ok
    obtain ⟨_, operand, read, last⟩ := Parse.ok_of_bind _ _ _ _ _ further
    cases last
    have facts := sound.expression _ _ _ _ read
    exact ⟨.await _ operand facts.1.expression facts.1.tighter, Limit.exceeds_none minimum, prefixed operand _ facts⟩
  · cases ok
    simp only [Cursor.isName, Bool.and_eq_true, Bool.not_eq_true', List.contains_eq_mem, decide_eq_false_iff_not]
      at named
    exact closed_stands _ minimum _ (.reference _ _ named.2) rfl rfl
  · obtain ⟨_, opening, _, further⟩ := Parse.ok_of_bind _ _ _ _ _ ok
    obtain ⟨_, inner, read, closing⟩ := Parse.ok_of_bind _ _ _ _ _ further
    obtain ⟨_, _, _, last⟩ := Parse.ok_of_bind _ _ _ _ _ closing
    cases last
    exact closed_stands _ minimum _ (.group _ inner (sound.expression _ _ _ _ read).1.expression) rfl rfl
  · obtain ⟨_, opening, _, further⟩ := Parse.ok_of_bind _ _ _ _ _ ok
    obtain ⟨_, items, read, last⟩ := Parse.ok_of_bind _ _ _ _ _ further
    cases last
    exact closed_stands _ minimum _ (.array _ items (reader.list_sound sound _ _ _ _ items read)) rfl rfl
  · rw [same] at ok
    obtain ⟨_, token, _, further⟩ := Parse.ok_of_bind _ _ _ _ _ ok
    obtain ⟨_, operand, read, last⟩ := Parse.ok_of_bind _ _ _ _ _ further
    cases last
    have facts := sound.expression _ _ _ _ read
    exact ⟨.unary _ _ operand facts.1.expression facts.1.tighter, Limit.exceeds_none minimum, prefixed operand _ facts⟩

theorem extend_stands (minimum : Nat) (left node : Node) (cursor rest : Cursor) (precedence : Nat)
    (extend : Reader → Node → Nat → Parse Node) (stands : left.Stands minimum cursor)
    (found : extending? minimum cursor ExpressionForm.standard = some (precedence, extend))
    (ok : extend reader left precedence cursor = .ok node rest) : node.Stands minimum rest := by
  obtain ⟨form, member, extends_, rfl, above, applies⟩ := extending_found minimum cursor _ precedence extend found
  have held : left.edge.Allows form.precedence := stands.closed form member (by simp [extends_]) applies
  have binds : Limit.Exceeds (some form.precedence) minimum := (Limit.exceeds_some _ minimum).mpr above
  rcases ExpressionForm.extend_cases form member cursor applies extend extends_ with
    ⟨rfl, same, _⟩ | ⟨rfl, same, _⟩ | ⟨rfl, same, _⟩ | ⟨rfl, same, _⟩ | ⟨rfl, _, op, symbol, same⟩
  · rw [same] at ok held binds
    obtain ⟨_, opening, _, further⟩ := Parse.ok_of_bind _ _ _ _ _ ok
    obtain ⟨_, arguments, read, last⟩ := Parse.ok_of_bind _ _ _ _ _ further
    cases last
    exact ⟨.call _ left arguments stands.expression (reader.list_sound sound _ _ _ _ arguments read) held,
      binds, rest.tight_none⟩
  · rw [same] at ok held binds
    obtain ⟨_, opening, _, further⟩ := Parse.ok_of_bind _ _ _ _ _ ok
    obtain ⟨_, place, read, closing⟩ := Parse.ok_of_bind _ _ _ _ _ further
    obtain ⟨_, _, _, last⟩ := Parse.ok_of_bind _ _ _ _ _ closing
    cases last
    exact ⟨.index _ left place stands.expression (sound.expression _ _ _ _ read).1.expression held,
      binds, rest.tight_none⟩
  · rw [same] at ok held binds
    obtain ⟨_, token, _, further⟩ := Parse.ok_of_bind _ _ _ _ _ ok
    obtain ⟨_, name, named, last⟩ := Parse.ok_of_bind _ _ _ _ _ further
    cases last
    exact ⟨.access _ left _ stands.expression (Parse.expect_name_ok _ _ _ _ named).1 held,
      binds, rest.tight_none⟩
  · rw [same] at binds
    obtain ⟨_, token, _, further⟩ := Parse.ok_of_bind _ _ _ _ _ ok
    cases stands.expression with
    | reference name position free =>
      obtain ⟨_, value, read, last⟩ := Parse.ok_of_bind _ _ _ _ _ further
      cases last
      have facts := sound.expression _ _ _ _ read
      exact ⟨.assign _ name value free facts.1.expression, binds, facts.2⟩
    | _ => cases further
  · obtain ⟨_, token, took, further⟩ := Parse.ok_of_bind _ _ _ _ _ ok
    cases took
    simp only [symbol] at further
    obtain ⟨_, right, read, last⟩ := Parse.ok_of_bind _ _ _ _ _ further
    cases last
    rw [← same] at read held binds
    have facts := sound.expression _ _ _ _ read
    exact ⟨.binary _ op left right stands.expression facts.1.expression held facts.1.tighter,
      binds, (rest.tight_lowered _ _).mpr ⟨facts.2, facts.1.closed⟩⟩

theorem expression_stands (minimum : Nat) (cursor rest : Cursor) (node : Node)
    (ok : standard.expression reader minimum cursor = .ok node rest) :
    node.Stands minimum rest ∧ rest.Tight (some minimum) := by
  obtain ⟨_, _, here, started⟩ := Parse.ok_of_bind _ _ _ _ _ ok
  cases here
  cases found : starting? cursor standard.expressions with
  | none =>
    simp only [found] at started
    cases started
  | some entry =>
    obtain ⟨precedence, start⟩ := entry
    simp only [found] at started
    obtain ⟨middle, first, read, looped⟩ := Parse.ok_of_bind _ _ _ _ _ started
    have round : ∀ left cursor result rest, standard.extension reader minimum left cursor = .ok result rest →
        (∃ precedence extend node, extending? minimum cursor ExpressionForm.standard = some (precedence, extend) ∧
          extend reader left precedence cursor = .ok node rest ∧ result = .inl node) ∨
        (cursor.Tight (some minimum) ∧ result = .inr left ∧ rest = cursor) := by
      intro left cursor result rest ok
      obtain ⟨_, _, here, decided⟩ := Parse.ok_of_bind _ _ _ _ _ ok
      cases here
      cases extending : extending? minimum cursor standard.expressions with
      | none =>
        simp only [extending] at decided
        cases decided
        exact .inr ⟨(extending_tight minimum cursor).mp extending, rfl, rfl⟩
      | some entry =>
        obtain ⟨precedence, extend⟩ := entry
        simp only [extending] at decided
        obtain ⟨_, node, extended, last⟩ := Parse.ok_of_bind _ _ _ _ _ decided
        cases last
        exact .inl ⟨precedence, extend, node, extending, extended, rfl⟩
    refine Parse.iterate_ok (fun left cursor => left.Stands minimum cursor)
      (fun node rest => node.Stands minimum rest ∧ rest.Tight (some minimum)) _ ?_ ?_ _ first middle rest node
      (start_stands reader sound minimum cursor middle precedence start first found read) looped
    · intro left cursor next rest stands ok
      rcases round left cursor _ rest ok with ⟨precedence, extend, node, extending, extended, same⟩ | ⟨_, same, _⟩
      all_goals cases same
      exact extend_stands reader sound minimum left next cursor rest precedence extend stands extending extended
    · intro left cursor value rest stands ok
      rcases round left cursor _ rest ok with ⟨_, _, _, _, _, same⟩ | ⟨tight, same, rfl⟩
      all_goals cases same
      exact ⟨stands, tight⟩

end Grammar

namespace StatementForm

theorem condition_sound (cursor rest : Cursor) (node : Node) (ok : condition reader cursor = .ok node rest) :
    node.Expression := by
  obtain ⟨_, opening, _, further⟩ := Parse.ok_of_bind _ _ _ _ _ ok
  obtain ⟨_, inner, read, closing⟩ := Parse.ok_of_bind _ _ _ _ _ further
  obtain ⟨_, _, _, last⟩ := Parse.ok_of_bind _ _ _ _ _ closing
  cases last
  exact (sound.expression _ _ _ _ read).1.expression

theorem function_sound (cursor rest : Cursor) (node : Node) (ok : parseFunction reader cursor = .ok node rest) :
    node.Statement := by
  obtain ⟨_, first, _, marked⟩ := Parse.ok_of_bind _ _ _ _ _ ok
  obtain ⟨_, isAsync, _, worded⟩ := Parse.ok_of_bind _ _ _ _ _ marked
  obtain ⟨_, _, _, named⟩ := Parse.ok_of_bind _ _ _ _ _ worded
  obtain ⟨_, name, given, opened⟩ := Parse.ok_of_bind _ _ _ _ _ named
  obtain ⟨_, opening, _, listed⟩ := Parse.ok_of_bind _ _ _ _ _ opened
  obtain ⟨_, names, taken, followed⟩ := Parse.ok_of_bind _ _ _ _ _ listed
  obtain ⟨_, body, lines, last⟩ := Parse.ok_of_bind _ _ _ _ _ followed
  cases last
  have parameters := reader.parameters_sound _ opening _ _ names taken
  exact .function _ _ names isAsync body (Parse.expect_name_ok _ _ _ _ given).1 parameters.1 parameters.2
    (reader.block_sound sound _ _ body lines)

theorem return_sound (cursor rest : Cursor) (node : Node) (ok : parseReturn reader cursor = .ok node rest) :
    node.Statement := by
  obtain ⟨_, _, _, further⟩ := Parse.ok_of_bind _ _ _ _ _ ok
  obtain ⟨_, bare, _, decided⟩ := Parse.ok_of_bind _ _ _ _ _ further
  cases bare with
  | true =>
    cases decided
    exact .giveBack _ none fun _ member => nomatch member
  | false =>
    obtain ⟨_, value, read, last⟩ := Parse.ok_of_bind _ _ _ _ _ decided
    cases last
    refine .giveBack _ (some value) fun node member => ?_
    exact Option.mem_some.mp member ▸ (sound.expression _ _ _ _ read).1.expression

theorem branch_sound (cursor rest : Cursor) (node : Node) (ok : parseIf reader cursor = .ok node rest) :
    node.Statement := by
  obtain ⟨_, _, _, asked⟩ := Parse.ok_of_bind _ _ _ _ _ ok
  obtain ⟨_, question, condition, further⟩ := Parse.ok_of_bind _ _ _ _ _ asked
  obtain ⟨_, whenTrue, lines, parted⟩ := Parse.ok_of_bind _ _ _ _ _ further
  obtain ⟨_, other, _, rejoined⟩ := Parse.ok_of_bind _ _ _ _ _ parted
  have first : ∀ line ∈ whenTrue, line.Statement := reader.body_sound sound _ _ whenTrue lines
  have expression : question.Expression := condition_sound reader sound _ _ question condition
  cases other with
  | true =>
    obtain ⟨_, whenFalse, otherLines, last⟩ := Parse.ok_of_bind _ _ _ _ _ rejoined
    cases last
    obtain ⟨_, body, read, wrapped⟩ := Parse.ok_of_bind _ _ _ _ _ otherLines
    cases wrapped
    refine .branch _ question whenTrue (some body) expression first fun other member => ?_
    exact Option.mem_some.mp member ▸ reader.body_sound sound _ _ body read
  | false =>
    cases rejoined
    exact .branch _ question whenTrue none expression first fun _ member => nomatch member

theorem loop_sound (cursor rest : Cursor) (node : Node) (ok : parseWhile reader cursor = .ok node rest) :
    node.Statement := by
  obtain ⟨_, _, _, asked⟩ := Parse.ok_of_bind _ _ _ _ _ ok
  obtain ⟨_, question, condition, further⟩ := Parse.ok_of_bind _ _ _ _ _ asked
  obtain ⟨_, body, lines, last⟩ := Parse.ok_of_bind _ _ _ _ _ further
  cases last
  exact .loop _ question body (condition_sound reader sound _ _ question condition)
    (reader.body_sound sound _ _ body lines)

theorem block_sound (cursor rest : Cursor) (node : Node) (ok : parseBlock reader cursor = .ok node rest) :
    node.Statement := by
  obtain ⟨_, first, _, further⟩ := Parse.ok_of_bind _ _ _ _ _ ok
  obtain ⟨_, body, lines, last⟩ := Parse.ok_of_bind _ _ _ _ _ further
  cases last
  exact .block _ body (reader.block_sound sound _ _ body lines)

end StatementForm

theorem Grammar.statement_sound (cursor rest : Cursor) (node : Node)
    (ok : standard.statement reader cursor = .ok node rest) : node.Statement := by
  obtain ⟨place, _, _, further⟩ := Parse.ok_of_bind _ _ _ _ _ ok
  obtain ⟨_, _, here, chosen⟩ := Parse.ok_of_bind _ _ _ _ _ further
  cases here
  cases found : standard.statements.find? fun form => form.applies place with
  | none =>
    simp only [found] at chosen
    exact .expression node (sound.expression _ _ _ _ chosen).1.expression
  | some form =>
    simp only [found] at chosen
    have member := List.mem_of_find?_eq_some found
    simp only [standard, StatementForm.standard, List.mem_cons, List.not_mem_nil, or_false] at member
    rcases member with rfl | rfl | rfl | rfl | rfl
    · exact StatementForm.function_sound reader sound place rest node chosen
    · exact StatementForm.return_sound reader sound place rest node chosen
    · exact StatementForm.branch_sound reader sound place rest node chosen
    · exact StatementForm.loop_sound reader sound place rest node chosen
    · exact StatementForm.block_sound reader sound place rest node chosen

end Reading

theorem Reader.of_fuel_sound (fuel : Nat) : (Reader.ofFuel Grammar.standard fuel).Sound := by
  induction fuel with
  | zero => exact ⟨(fun _ _ _ ok => nomatch ok), fun _ _ _ _ ok => nomatch ok⟩
  | succ fuel ih =>
    exact ⟨fun cursor node rest ok => Grammar.statement_sound _ ih cursor rest node ok,
      fun minimum cursor node rest ok => Grammar.expression_stands _ ih minimum cursor rest node ok⟩

theorem Grammar.parsed_statements (tokens : List Token) (nodes : List Node) (rest : Cursor)
    (ok : standard.parse tokens = .ok nodes rest) : ∀ node ∈ nodes, node.Statement := by
  unfold parse at ok
  cases first : Cursor.ofTokens? tokens with
  | none =>
    rw [first] at ok
    cases ok
  | some cursor =>
    rw [first] at ok
    exact Reader.program_sound _ (Reader.of_fuel_sound _) cursor rest nodes ok

end CoopScript
