import CoopScript.Proofs.Grammar.Climb

set_option autoImplicit false
namespace CoopScript

namespace Token

-- The tokens that statements start with.
def Begins (token : Token) : Prop :=
  token.kind ≠ .separator ∧ token.kind ≠ .finish ∧ token.is .bracket "\x7d" = false

theorem Opens.begins {token : Token} (opens : token.Opens) : token.Begins := by
  refine ⟨fun kind => ?_, fun kind => ?_, opens.not_bracket _ (by decide)⟩
  all_goals simp [Opens, kind] at opens

theorem word_begins (text : String) : (word text).Begins := ⟨nofun, nofun, rfl⟩

theorem brace_begins : (bracket "\x7b").Begins := ⟨nofun, nofun, by decide⟩

end Token

namespace Node

theorem Statement.begins {node : Node} (statement : node.Statement) :
    ∃ token more, node.spelling = token :: more ∧ token.Begins := by
  cases statement with
  | expression _ expression =>
    obtain ⟨token, more, same, opens⟩ := expression.opens
    exact ⟨token, more, same, opens.begins⟩
  | function position name parameters isAsync body =>
    cases isAsync <;> exact ⟨_, _, by rw [spelling]; rfl, Token.word_begins _⟩
  | giveBack position value =>
    cases value <;> exact ⟨_, _, by rw [spelling], Token.word_begins _⟩
  | branch position condition whenTrue whenFalse =>
    cases whenFalse <;> exact ⟨_, _, by rw [spelling]; rfl, Token.word_begins _⟩
  | loop => exact ⟨_, _, by rw [spelling]; rfl, Token.word_begins _⟩
  | block => exact ⟨_, _, by rw [spelling]; rfl, Token.brace_begins⟩

def LineSpelled (node : Node) : Prop :=
  ∀ (size : Nat) (rest : Cursor), node.spelling.length + 1 < size → rest.isKind .separator = true →
    (Reader.ofFuel Grammar.standard size).statement (rest.before node.spelling) = .ok node.unplaced rest

theorem line_spelling_length (lines : List Node) : lines.length ≤ (lineSpelling lines).length := by
  induction lines with
  | nil => simp
  | cons line rest ih =>
    simp only [lineSpelling, List.length_append, List.length_cons]
    omega

theorem lines_skip (lines : List Node) (rest : Cursor) (statements : ∀ line ∈ lines, line.Statement)
    (shown : rest.isKind .separator = false) :
    (rest.before (lineSpelling lines)).skipSeparators = rest.before (lineSpelling lines) := by
  refine Cursor.skip_none _ ?_
  cases lines with
  | nil => simpa [lineSpelling, Cursor.before_nil, Cursor.isKind] using shown
  | cons line lines =>
    obtain ⟨token, more, same, begins⟩ := (statements line List.mem_cons_self).begins
    rw [lineSpelling, same]
    exact begins.1

theorem block_lines_read (size : Nat) (opening : Token) (rest : Cursor) (lines : List Node)
    (statements : ∀ line ∈ lines, line.Statement) (each : ∀ line ∈ lines, line.LineSpelled)
    (fits : (lineSpelling lines).length < size) (rounds : Nat) (enough : lines.length < rounds) (done : List Node)
    (cursor : Cursor) (skipped : cursor.skipSeparators = (rest.put (.bracket "\x7d")).before (lineSpelling lines)) :
    Parse.iterate ((Reader.ofFuel Grammar.standard size).blockStep opening) rounds done cursor =
      .ok (done.reverse ++ unplacedAll lines) rest := by
  induction lines generalizing rounds done cursor with
  | nil =>
    obtain ⟨rounds, rfl⟩ : ∃ fewer, rounds = fewer + 1 := ⟨rounds - 1, by omega⟩
    refine Parse.iterate_last _ rounds _ _ _ rest ?_
    refine (Parse.bind_ok Parse.skipSeparators _ cursor _ () rfl).trans ?_
    rw [skipped, lineSpelling, Cursor.before_nil]
    refine (Parse.bind_ok _ _ _ _ _ (Parse.take_if_yes _ _ rest (by rintro ⟨⟩) rfl)).trans ?_
    rw [unplacedAll, List.append_nil]
    rfl
  | cons line lines ih =>
    obtain ⟨rounds, rfl⟩ : ∃ fewer, rounds = fewer + 1 := ⟨rounds - 1, by omega⟩
    rw [lineSpelling, List.length_append, List.length_cons] at fits
    rw [lineSpelling, Cursor.before_append, Cursor.before_cons] at skipped
    have later : ∀ other ∈ lines, other.Statement := fun other member => statements other (List.mem_cons_of_mem line member)
    have read := each line List.mem_cons_self size
      (((rest.put (.bracket "\x7d")).before (lineSpelling lines)).put .separator) (by omega) rfl
    have begins : (cursor.skipSeparators).isBracket "\x7d" = false ∧ cursor.skipSeparators.atEnd = false := by
      obtain ⟨token, more, same, _, notFinish, notClosing⟩ := (statements line List.mem_cons_self).begins
      rw [skipped, same]
      exact ⟨notClosing, decide_eq_false notFinish⟩
    have round : (Reader.ofFuel Grammar.standard size).blockStep opening done cursor = .ok (.inl (line.unplaced :: done))
        (((rest.put (.bracket "\x7d")).before (lineSpelling lines)).put .separator) := by
      refine (Parse.bind_ok Parse.skipSeparators _ cursor _ () rfl).trans ?_
      refine (Parse.bind_ok _ _ _ _ _ (Parse.take_if_no _ _ begins.1)).trans ?_
      refine (Parse.bind_ok (Parse.ask Cursor.atEnd) _ _ _ false (by rw [Parse.ask, begins.2])).trans ?_
      exact Parse.bind_ok _ _ _ _ _ (skipped ▸ read)
    rw [Parse.iterate_again _ rounds done _ _ _ round, ih later
      (fun other member => each other (List.mem_cons_of_mem line member)) (by omega) rounds (by simpa using enough)]
    · simp only [List.reverse_cons, List.append_assoc, unplacedAll]
      rfl
    · rw [Cursor.skip_put _ _ rfl]
      exact lines_skip lines _ later rfl

theorem block_read (size : Nat) (rest : Cursor) (lines : List Node) (statements : ∀ line ∈ lines, line.Statement)
    (each : ∀ line ∈ lines, line.LineSpelled) (fits : (lineSpelling lines).length < size) :
    (Reader.ofFuel Grammar.standard size).block
        (((rest.put (.bracket "\x7d")).before (lineSpelling lines)).put (.bracket "\x7b")) =
      .ok (unplacedAll lines) rest := by
  have length := line_spelling_length lines
  rw [Reader.block_rounds, Reader.of_fuel_fuel]
  refine (Parse.bind_ok _ _ _ _ _ (Parse.expect_bracket "\x7b" _)).trans ?_
  exact block_lines_read size (.bracket "\x7b") rest lines statements each fits size (by omega) [] _
    (lines_skip lines _ statements rfl)

end Node

theorem Token.names_length (names : List String) : names.length ≤ (Token.names names).length := by
  induction names with
  | nil => simp
  | cons name rest ih =>
    cases rest with
    | nil => simp [Token.names]
    | cons next rest =>
      simp only [Token.names, List.length_cons] at ih ⊢
      omega

namespace StatementForm

-- All that a function's form reads after it has asked for `async`.
def functionTail (reader : Reader) (first : Token) (isAsync : Bool) : Parse Node := do
  let _ ← Parse.expect .word "fn"
  let name := (← Parse.expectName "function name").text
  let opening ← Parse.expect .bracket "("
  let names ← parameters reader name opening
  let body ← reader.block
  return .function "fn" first.position name names isAsync body

theorem names_read (function : String) (opening : Token) (rest : Cursor) (name : String) (names : List String)
    (free : ∀ other ∈ name :: names, other ∉ keywords) (rounds : Nat) (enough : names.length < rounds)
    (done : List String) (distinct : (done ++ name :: names).Nodup) :
    Parse.iterate (Reader.parameterStep function opening) rounds done
        ((rest.put (.bracket ")")).before (Token.names (name :: names))) = .ok (done ++ name :: names) rest := by
  induction names generalizing name rounds done with
  | nil =>
    obtain ⟨rounds, rfl⟩ : ∃ fewer, rounds = fewer + 1 := ⟨rounds - 1, by omega⟩
    have new : done.contains name = false := by
      simpa using fun among => (List.nodup_append.mp distinct).2.2 name among name List.mem_cons_self rfl
    refine Parse.iterate_last _ rounds _ _ _ rest ?_
    rw [Token.names, Cursor.before_cons, Cursor.before_nil]
    refine (Parse.bind_ok _ _ _ _ _ (Parse.expect_name "parameter name" name _ (free name List.mem_cons_self))).trans ?_
    have shown : (Token.word name).text = name := rfl
    simp only [shown, new]
    refine (Parse.bind_ok _ _ _ _ _ (Parse.take_if_no _ _ rfl)).trans ?_
    exact Parse.bind_ok _ _ _ _ _ (Parse.expect_closing opening ")" rest)
  | cons next names ih =>
    obtain ⟨rounds, rfl⟩ : ∃ fewer, rounds = fewer + 1 := ⟨rounds - 1, by omega⟩
    have new : done.contains name = false := by
      simpa using fun among => (List.nodup_append.mp distinct).2.2 name among name List.mem_cons_self rfl
    have round : Reader.parameterStep function opening done
        ((rest.put (.bracket ")")).before (Token.names (name :: next :: names))) =
        .ok (.inl (done ++ [name])) ((rest.put (.bracket ")")).before (Token.names (next :: names))) := by
      rw [Token.names, Cursor.before_cons, Cursor.before_cons]
      · refine (Parse.bind_ok _ _ _ _ _
          (Parse.expect_name "parameter name" name _ (free name List.mem_cons_self))).trans ?_
        have shown : (Token.word name).text = name := rfl
        simp only [shown, new]
        exact Parse.bind_ok _ _ _ _ _ (Parse.take_if_yes _ _ _ (by rintro ⟨⟩) rfl)
      · rintro ⟨⟩
    rw [Parse.iterate_again _ rounds done _ _ _ round, ih next
      (fun other member => free other (List.mem_cons_of_mem name member)) rounds (by simpa using enough)
      (done ++ [name]) (by simpa using distinct)]
    simp only [List.append_assoc, List.singleton_append]

theorem parameters_read (size : Nat) (function : String) (opening : Token) (rest : Cursor) (names : List String)
    (free : ∀ name ∈ names, name ∉ keywords) (distinct : names.Nodup) (fits : (Token.names names).length < size) :
    parameters (.ofFuel Grammar.standard size) function opening
        ((rest.put (.bracket ")")).before (Token.names names)) = .ok names rest := by
  rw [Reader.parameter_rounds, Reader.of_fuel_fuel]
  cases names with
  | nil => exact Parse.bind_ok _ _ _ _ _ (Parse.take_if_yes _ _ rest (by rintro ⟨⟩) rfl)
  | cons name names =>
    have length := Token.names_length (name :: names)
    rw [List.length_cons] at length
    have first : ((rest.put (.bracket ")")).before (Token.names (name :: names))).isBracket ")" = false := by
      cases names <;> rfl
    refine (Parse.bind_ok _ _ _ _ _ (Parse.take_if_no _ _ first)).trans ?_
    exact names_read function opening rest name names free size (by omega) [] distinct

theorem condition_read (size : Nat) (question : Node) (expression : question.Expression) (rest : Cursor)
    (fits : question.spelling.length < size) :
    condition (.ofFuel Grammar.standard size) (((rest.put (.bracket ")")).before question.spelling).put (.bracket "(")) =
      .ok question.unplaced rest := by
  have closed := rest.tight_closing ")" (by decide)
  have read := expression.spelled.read size 0 _ fits question.grip_pos (closed.loosen _) closed
  refine (Parse.bind_ok _ _ _ _ _ (Parse.expect_bracket "(" _)).trans ?_
  refine (Parse.bind_ok _ _ _ _ _ read).trans ?_
  exact Parse.bind_ok _ _ _ _ _ (Parse.expect_closing _ ")" rest)

end StatementForm

namespace Node

-- A form that the cursor shows reads with one less to go on.
theorem statement_form (size : Nat) (cursor : Cursor) (form : StatementForm) (shown : cursor.isKind .separator = false)
    (found : (Grammar.standard.statements.find? fun form => form.applies cursor) = some form) :
    (Reader.ofFuel Grammar.standard (size + 1)).statement cursor = form.parse (.ofFuel Grammar.standard size) cursor := by
  have same : cursor.skipSeparators = cursor := cursor.skip_none (by simpa [Cursor.isKind] using shown)
  refine (Parse.bind_ok Parse.skipSeparators _ cursor cursor () (by rw [Parse.skipSeparators, same])).trans ?_
  refine (Parse.bind_ok Parse.cursor _ cursor cursor cursor rfl).trans ?_
  simp only [found]

theorem body_read (size : Nat) (rest : Cursor) (lines : List Node) (statements : ∀ line ∈ lines, line.Statement)
    (each : ∀ line ∈ lines, line.LineSpelled) (fits : (lineSpelling lines).length < size) :
    (Reader.ofFuel Grammar.standard size).body
        (((rest.put (.bracket "\x7d")).before (lineSpelling lines)).put (.bracket "\x7b")) =
      .ok (unplacedAll lines) rest :=
  (Parse.bind_ok (Parse.ask (·.isBracket "\x7b")) _ _ _ true rfl).trans
    (block_read size rest lines statements each fits)

theorem expression_line (node : Node) (expression : node.Expression) : node.LineSpelled := by
  intro size rest fits separator
  obtain ⟨size, rfl⟩ : ∃ smaller, size = smaller + 1 := ⟨size - 1, by omega⟩
  obtain ⟨token, more, same, opens⟩ := expression.opens
  have tight := rest.tight_separator separator
  have shown : (rest.before node.spelling).current = token := by rw [same]; rfl
  have skipped : (rest.before node.spelling).skipSeparators = rest.before node.spelling :=
    Cursor.skip_none _ (by rw [shown]; exact opens.begins.1)
  have none : Grammar.standard.statements.find? (fun form => form.applies (rest.before node.spelling)) = none := by
    refine List.find?_eq_none.mpr fun form member applies => ?_
    simp only [Grammar.standard, StatementForm.standard, List.mem_cons, List.not_mem_nil, or_false] at member
    have word : ∀ text ∈ keywords, text ≠ "await" → (rest.before node.spelling).isWord text = false :=
      fun text reserved other => (congrArg (·.is .word text) shown).trans (opens.not_word text reserved other)
    rcases member with rfl | rfl | rfl | rfl | rfl
    · simp only [StatementForm.function, StatementForm.startsFunction, word "fn" (by decide) (by decide),
        word "async" (by decide) (by decide), Bool.false_and, Bool.or_false, Bool.false_eq_true] at applies
    · exact Bool.false_ne_true ((word "return" (by decide) (by decide)).symm.trans applies)
    · exact Bool.false_ne_true ((word "if" (by decide) (by decide)).symm.trans applies)
    · exact Bool.false_ne_true ((word "while" (by decide) (by decide)).symm.trans applies)
    · have brace : (rest.before node.spelling).isBracket "\x7b" = false :=
        (congrArg (·.is .bracket "\x7b") shown).trans (opens.not_bracket _ (by decide))
      exact Bool.false_ne_true (brace.symm.trans applies)
  have read := expression.spelled.read size 0 rest (by omega) node.grip_pos (tight.loosen _) tight
  refine (Parse.bind_ok Parse.skipSeparators _ _ (rest.before node.spelling) ()
    (by rw [Parse.skipSeparators, skipped])).trans ?_
  refine (Parse.bind_ok Parse.cursor _ _ _ _ rfl).trans ?_
  simp only [none]
  exact read

section Forms
variable (position : Position)

section Function
variable (name : String) (parameters : List String) (body : List Node) (free : name ∉ keywords)
  (freeParameters : ∀ parameter ∈ parameters, parameter ∉ keywords) (distinct : parameters.Nodup)
  (lines : ∀ line ∈ body, line.Statement) (each : ∀ line ∈ body, line.LineSpelled)
include free freeParameters distinct lines each

theorem function_tail_read (size : Nat) (first : Token) (isAsync : Bool) (rest : Cursor)
    (fits : (Token.names parameters).length + (lineSpelling body).length < size) :
    StatementForm.functionTail (.ofFuel Grammar.standard size) first isAsync
        ((((((((rest.put (.bracket "\x7d")).before (lineSpelling body)).put (.bracket "\x7b")).put (.bracket ")")).before
          (Token.names parameters)).put (.bracket "(")).put (.word name)).put (.word "fn")) =
      .ok (.function "fn" first.position name parameters isAsync (unplacedAll body)) rest := by
  have named := StatementForm.parameters_read size name (.bracket "(")
    (((rest.put (.bracket "\x7d")).before (lineSpelling body)).put (.bracket "\x7b")) parameters freeParameters distinct
  have blocked := block_read size rest body lines each
  refine (Parse.bind_ok _ _ _ _ _ (Parse.expect_word "fn" _)).trans ?_
  refine (Parse.bind_ok _ _ _ _ _ (Parse.expect_name "function name" name _ free)).trans ?_
  refine (Parse.bind_ok _ _ _ _ _ (Parse.expect_bracket "(" _)).trans ?_
  refine (Parse.bind_ok _ _ _ _ _ (named (by omega))).trans ?_
  exact Parse.bind_ok _ _ _ _ _ (blocked (by omega))

theorem function_spelled (isAsync : Bool) : (function "fn" position name parameters isAsync body).LineSpelled := by
  intro size rest fits separator
  obtain ⟨size, rfl⟩ : ∃ smaller, size = smaller + 1 := ⟨size - 1, by omega⟩
  have tail := function_tail_read name parameters body free freeParameters distinct lines each size
  cases isAsync with
  | false =>
    simp only [spelling, Bool.false_eq_true, if_false, List.nil_append, List.length_append, List.length_cons,
      List.length_nil] at fits
    simp only [spelling, Bool.false_eq_true, if_false, List.nil_append, Cursor.before_append, Cursor.before_cons,
      Cursor.before_nil]
    rw [statement_form size _ .function rfl rfl]
    refine (Parse.bind_ok Parse.current _ _ _ _ rfl).trans ?_
    refine (Parse.bind_ok _ _ _ _ _ (Parse.take_if_no _ _ rfl)).trans ?_
    refine (tail (.word "fn") false rest (by omega)).trans ?_
    simp only [unplaced]
    rfl
  | true =>
    simp only [spelling, if_true, List.length_append, List.length_cons, List.length_nil] at fits
    simp only [spelling, if_true, Cursor.before_append, Cursor.before_cons, Cursor.before_nil]
    rw [statement_form size _ .function rfl rfl]
    refine (Parse.bind_ok Parse.current _ _ _ _ rfl).trans ?_
    refine (Parse.bind_ok _ _ _ _ _ (Parse.take_if_yes _ _ _ (by rintro ⟨⟩) rfl)).trans ?_
    refine (tail (.word "async") true rest (by omega)).trans ?_
    simp only [unplaced]
    rfl

end Function

theorem bare_return_spelled : (giveBack "return" position none).LineSpelled := by
  intro size rest fits separator
  obtain ⟨size, rfl⟩ : ∃ smaller, size = smaller + 1 := ⟨size - 1, by omega⟩
  simp only [spelling, Cursor.before_cons, Cursor.before_nil]
  rw [statement_form size _ .giveBack rfl rfl]
  refine (Parse.bind_ok _ _ _ _ _ (Parse.take_put _ rest (by rintro ⟨⟩))).trans ?_
  refine (Parse.bind_ok (Parse.ask _) _ rest rest true (by simp [Parse.ask, separator])).trans ?_
  simp only [unplaced]
  rfl

theorem return_spelled (value : Node) (expression : value.Expression) :
    (giveBack "return" position (some value)).LineSpelled := by
  intro size rest fits separator
  obtain ⟨size, rfl⟩ : ∃ smaller, size = smaller + 1 := ⟨size - 1, by omega⟩
  simp only [spelling, List.length_cons] at fits
  simp only [spelling, Cursor.before_cons]
  rw [statement_form size _ .giveBack rfl rfl]
  obtain ⟨token, more, same, opens⟩ := expression.opens
  have goesOn : ((rest.before value.spelling).isKind .separator || (rest.before value.spelling).isBracket "\x7d" ||
      (rest.before value.spelling).atEnd) = false := by
    rw [same]
    simp only [Bool.or_eq_false_iff]
    exact ⟨⟨decide_eq_false opens.begins.1, opens.begins.2.2⟩, decide_eq_false opens.begins.2.1⟩
  have tight := rest.tight_separator separator
  have read := expression.spelled.read size 0 rest (by omega) value.grip_pos (tight.loosen _) tight
  refine (Parse.bind_ok _ _ _ _ _ (Parse.take_put _ _ (by rintro ⟨⟩))).trans ?_
  refine (Parse.bind_ok (Parse.ask _) _ _ _ false (congrArg (Parsed.ok · _) goesOn)).trans ?_
  refine (Parse.bind_ok _ _ _ _ _ read).trans ?_
  simp only [unplaced]
  rfl

section Branch
variable (condition : Node) (whenTrue : List Node) (question : condition.Expression)
  (lines : ∀ line ∈ whenTrue, line.Statement) (first : ∀ line ∈ whenTrue, line.LineSpelled)
include question lines first

theorem branch_spelled : (branch "if" position condition whenTrue none).LineSpelled := by
  intro size rest fits separator
  obtain ⟨size, rfl⟩ : ∃ smaller, size = smaller + 1 := ⟨size - 1, by omega⟩
  have noElse : rest.isWord "else" = false := by
    simp only [Cursor.isKind, decide_eq_true_eq] at separator
    simp [Cursor.isWord, Token.is, separator]
  simp only [spelling, List.length_append, List.length_cons, List.length_nil] at fits
  simp only [spelling, Cursor.before_append, Cursor.before_cons, Cursor.before_nil]
  rw [statement_form size _ .branch rfl rfl]
  refine (Parse.bind_ok _ _ _ _ _ (Parse.take_put _ _ (by rintro ⟨⟩))).trans ?_
  refine (Parse.bind_ok _ _ _ _ _ (StatementForm.condition_read size condition question _ (by omega))).trans ?_
  refine (Parse.bind_ok _ _ _ _ _ (body_read size rest whenTrue lines first (by omega))).trans ?_
  refine (Parse.bind_ok _ _ _ _ _ (Parse.take_if_no _ rest noElse)).trans ?_
  simp only [unplaced]
  rfl

theorem two_branches_spelled (whenFalse : List Node) (otherLines : ∀ line ∈ whenFalse, line.Statement)
    (second : ∀ line ∈ whenFalse, line.LineSpelled) :
    (branch "if" position condition whenTrue (some whenFalse)).LineSpelled := by
  intro size rest fits separator
  obtain ⟨size, rfl⟩ : ∃ smaller, size = smaller + 1 := ⟨size - 1, by omega⟩
  simp only [spelling, List.length_append, List.length_cons, List.length_nil] at fits
  simp only [spelling, Cursor.before_append, Cursor.before_cons, Cursor.before_nil]
  rw [statement_form size _ .branch rfl rfl]
  have otherwise := body_read size rest whenFalse otherLines second (by omega)
  refine (Parse.bind_ok _ _ _ _ _ (Parse.take_put _ _ (by rintro ⟨⟩))).trans ?_
  refine (Parse.bind_ok _ _ _ _ _ (StatementForm.condition_read size condition question _ (by omega))).trans ?_
  refine (Parse.bind_ok _ _ _ _ _ (body_read size _ whenTrue lines first (by omega))).trans ?_
  refine (Parse.bind_ok _ _ _ _ _ (Parse.take_if_yes _ _ _ (by rintro ⟨⟩) rfl)).trans ?_
  refine (Parse.bind_ok (some <$> (Reader.ofFuel Grammar.standard size).body) _ _ _ _
    (Parse.bind_ok _ _ _ _ _ otherwise)).trans ?_
  simp only [unplaced]
  rfl

end Branch

theorem loop_spelled (condition : Node) (body : List Node) (question : condition.Expression)
    (lines : ∀ line ∈ body, line.Statement) (each : ∀ line ∈ body, line.LineSpelled) :
    (loop "while" position condition body).LineSpelled := by
  intro size rest fits separator
  obtain ⟨size, rfl⟩ : ∃ smaller, size = smaller + 1 := ⟨size - 1, by omega⟩
  simp only [spelling, List.length_append, List.length_cons, List.length_nil] at fits
  simp only [spelling, Cursor.before_append, Cursor.before_cons, Cursor.before_nil]
  rw [statement_form size _ .loop rfl rfl]
  refine (Parse.bind_ok _ _ _ _ _ (Parse.take_put _ _ (by rintro ⟨⟩))).trans ?_
  refine (Parse.bind_ok _ _ _ _ _ (StatementForm.condition_read size condition question _ (by omega))).trans ?_
  refine (Parse.bind_ok _ _ _ _ _ (body_read size rest body lines each (by omega))).trans ?_
  simp only [unplaced]
  rfl

theorem block_spelled (body : List Node) (lines : ∀ line ∈ body, line.Statement)
    (each : ∀ line ∈ body, line.LineSpelled) : (block "block" position body).LineSpelled := by
  intro size rest fits separator
  obtain ⟨size, rfl⟩ : ∃ smaller, size = smaller + 1 := ⟨size - 1, by omega⟩
  simp only [spelling, List.length_append, List.length_cons, List.length_nil] at fits
  simp only [spelling, Cursor.before_append, Cursor.before_cons, Cursor.before_nil]
  rw [statement_form size _ .block rfl rfl]
  refine (Parse.bind_ok Parse.current _ _ _ _ rfl).trans ?_
  refine (Parse.bind_ok _ _ _ _ _ (block_read size rest body lines each (by omega))).trans ?_
  simp only [unplaced]
  rfl

end Forms

theorem Statement.spelled {node : Node} (statement : node.Statement) : node.LineSpelled := by
  induction statement with
  | expression node expression => exact node.expression_line expression
  | function position name parameters isAsync body free freeParameters distinct lines each =>
    exact function_spelled position name parameters body free freeParameters distinct lines each isAsync
  | giveBack position value given =>
    cases value with
    | none => exact bare_return_spelled position
    | some value => exact return_spelled position value (given value rfl)
  | branch position condition whenTrue whenFalse question lines otherLines first second =>
    cases whenFalse with
    | none => exact branch_spelled position condition whenTrue question lines first
    | some whenFalse =>
      exact two_branches_spelled position condition whenTrue question lines first whenFalse (otherLines whenFalse rfl)
        (second whenFalse rfl)
  | loop position condition body question lines each => exact loop_spelled position condition body question lines each
  | block position body lines each => exact block_spelled position body lines each

theorem program_lines_read (size : Nat) (lines : List Node) (statements : ∀ line ∈ lines, line.Statement)
    (fits : (lineSpelling lines).length + 1 < size) (rounds : Nat) (enough : lines.length < rounds) (done : List Node) :
    Parse.iterate (Reader.ofFuel Grammar.standard size).programStep rounds done
        ((⟨.finish, []⟩ : Cursor).before (lineSpelling lines)) =
      .ok (done.reverse ++ unplacedAll lines) ⟨.finish, []⟩ := by
  induction lines generalizing rounds done with
  | nil =>
    obtain ⟨rounds, rfl⟩ : ∃ fewer, rounds = fewer + 1 := ⟨rounds - 1, by omega⟩
    refine Parse.iterate_last _ rounds _ _ _ _ ?_
    rw [lineSpelling, Cursor.before_nil]
    refine (Parse.bind_ok (Parse.ask Cursor.atEnd) _ _ _ true rfl).trans ?_
    rw [unplacedAll, List.append_nil]
    rfl
  | cons line lines ih =>
    obtain ⟨rounds, rfl⟩ : ∃ fewer, rounds = fewer + 1 := ⟨rounds - 1, by omega⟩
    have later : ∀ other ∈ lines, other.Statement := fun other member => statements other (List.mem_cons_of_mem line member)
    rw [lineSpelling, List.length_append, List.length_cons] at fits
    rw [lineSpelling, Cursor.before_append, Cursor.before_cons]
    have read := (statements line List.mem_cons_self).spelled size
      (((⟨.finish, []⟩ : Cursor).before (lineSpelling lines)).put .separator) (by omega) rfl
    have further : ((((⟨.finish, []⟩ : Cursor).before (lineSpelling lines)).put .separator).before
        line.spelling).atEnd = false := by
      obtain ⟨token, more, same, _, notFinish, _⟩ := (statements line List.mem_cons_self).begins
      rw [same]
      exact decide_eq_false notFinish
    have skipped : (((⟨.finish, []⟩ : Cursor).before (lineSpelling lines)).put .separator).skipSeparators =
        (⟨.finish, []⟩ : Cursor).before (lineSpelling lines) :=
      (Cursor.skip_put _ _ rfl).trans (lines_skip lines _ later rfl)
    have round : (Reader.ofFuel Grammar.standard size).programStep done
        ((((⟨.finish, []⟩ : Cursor).before (lineSpelling lines)).put .separator).before line.spelling) =
        .ok (.inl (line.unplaced :: done)) ((⟨.finish, []⟩ : Cursor).before (lineSpelling lines)) := by
      refine (Parse.bind_ok (Parse.ask Cursor.atEnd) _ _ _ false (congrArg (Parsed.ok · _) further)).trans ?_
      refine (Parse.bind_ok _ _ _ _ _ read).trans ?_
      exact Parse.bind_ok Parse.skipSeparators _ _ _ () (congrArg (Parsed.ok ()) skipped)
    rw [Parse.iterate_again _ rounds done _ _ _ round, ih later (by omega) rounds (by simpa using enough)]
    simp only [List.reverse_cons, List.append_assoc, unplacedAll]
    rfl

end Node

theorem Grammar.parse_print (nodes : List Node) (statements : ∀ node ∈ nodes, node.Statement) :
    standard.parse (Node.print nodes) = .ok (nodes.map Node.unplaced) ⟨.finish, []⟩ := by
  have length := Node.line_spelling_length nodes
  have size : (Node.lineSpelling nodes).length + 1 < allowance (Node.lineSpelling nodes ++ [.finish]) := by
    simp only [allowance, List.length_append, List.length_singleton]
    omega
  simp only [parse, Node.print, Cursor.of_tokens_before]
  rw [← Node.unplaced_all, Reader.program_rounds, Reader.of_fuel_fuel]
  have skipped : ((⟨.finish, []⟩ : Cursor).before (Node.lineSpelling nodes)).skipSeparators =
      (⟨.finish, []⟩ : Cursor).before (Node.lineSpelling nodes) := Node.lines_skip nodes _ statements rfl
  refine (Parse.bind_ok Parse.skipSeparators _ _ _ () (congrArg (Parsed.ok ()) skipped)).trans ?_
  exact Node.program_lines_read _ nodes statements size _ (by omega) []

/-- Every list of tokens that is accepted gives canonical trees, and whichever trees are canonical, the tokens that they
are written with are accepted and give them back, but for the places. -/
theorem Grammar.image_canonical :
    (∀ tokens nodes rest, standard.parse tokens = .ok nodes rest → ∀ node ∈ nodes, node.Statement) ∧
      ∀ nodes, (∀ node ∈ nodes, node.Statement) →
        standard.parse (Node.print nodes) = .ok (nodes.map Node.unplaced) ⟨.finish, []⟩ :=
  ⟨parsed_statements, parse_print⟩

-- `x = a + b * c`, and the tokens it is printed as.
theorem Grammar.image_of_sum : ∃ node,
    standard.parse [.word "x", .symbol "=", .word "a", .symbol "+", .word "b", .symbol "*", .word "c", .finish] =
      .ok [node] ⟨.finish, []⟩ ∧
    node.Statement ∧ standard.parse (Node.print [node]) = .ok [node] ⟨.finish, []⟩ := by
  let sum : Node := .assign "assign" default "x" (.binary "binary" default .add (.reference "a" default)
    (.binary "binary" default .mul (.reference "b" default) (.reference "c" default)))
  have read : standard.parse [.word "x", .symbol "=", .word "a", .symbol "+", .word "b", .symbol "*", .word "c",
    .finish] = .ok [sum] ⟨.finish, []⟩ := rfl
  have canonical := image_canonical.1 _ _ _ read
  exact ⟨sum, read, canonical sum List.mem_cons_self, image_canonical.2 [sum] canonical⟩

end CoopScript
