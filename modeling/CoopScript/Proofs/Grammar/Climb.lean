import CoopScript.Proofs.Grammar.Shown

set_option autoImplicit false
namespace CoopScript

theorem Reader.of_fuel_fuel (grammar : Grammar) (size : Nat) : (Reader.ofFuel grammar size).fuel = size := by
  cases size <;> rfl

namespace Node

theorem held_grip (node : Node) (minimum precedence : Nat) (held : node.edge.Allows precedence)
    (most : precedence ≤ Precedence.postfixed) (loose : minimum < precedence) : node.grip.Exceeds minimum := by
  cases node with
  | binary _ _ op _ right =>
    exact (Limit.exceeds_some _ _).mpr (Nat.lt_of_lt_of_le loose ((Limit.allows_lowered _ _ _).mp held).1)
  | call | index | access => exact (Limit.exceeds_some _ _).mpr (Nat.lt_of_lt_of_le loose most)
  | assign => exact absurd (Nat.lt_of_lt_of_le loose (held 0 rfl)) (Nat.not_lt_zero minimum)
  | _ => exact Limit.exceeds_none minimum

theorem grip_pos (node : Node) : node.grip.Exceeds 0 := by
  cases node with
  | binary _ _ op _ _ => exact (Limit.exceeds_some _ 0).mpr (by cases op <;> decide)
  | call | index | access | assign => exact (Limit.exceeds_some _ 0).mpr (by decide)
  | _ => exact Limit.exceeds_none 0

-- Wherever its edge allows, the expression is read from its spelling as the left side of what goes on there. The
-- rounds left for going on are enough for what stands to the right of it.
def Spelled (node : Node) : Prop :=
  ∀ (size minimum : Nat) (rest : Cursor), node.spelling.length ≤ size → node.grip.Exceeds minimum → rest.Tight node.edge →
    ∃ rounds, size + 1 ≤ rounds + node.spelling.length ∧
      Grammar.standard.expression (.ofFuel Grammar.standard size) minimum (rest.before node.spelling) =
        Parse.iterate (Grammar.standard.extension (.ofFuel Grammar.standard size) minimum) rounds node.unplaced rest

theorem Spelled.read {node : Node} (spelled : node.Spelled) (size minimum : Nat) (rest : Cursor)
    (fits : node.spelling.length < size) (loose : node.grip.Exceeds minimum) (edge : rest.Tight node.edge)
    (tight : rest.Tight (some minimum)) :
    (Reader.ofFuel Grammar.standard size).expression minimum (rest.before node.spelling) = .ok node.unplaced rest := by
  obtain ⟨size, rfl⟩ : ∃ smaller, size = smaller + 1 := ⟨size - 1, by omega⟩
  obtain ⟨rounds, enough, same⟩ := spelled size minimum rest (by omega) loose edge
  obtain ⟨rounds, rfl⟩ : ∃ fewer, rounds = fewer + 1 := ⟨rounds - 1, by omega⟩
  refine same.trans (Parse.iterate_last _ rounds _ _ rest rest ?_)
  refine (Parse.bind_ok Parse.cursor _ rest rest rest rfl).trans ?_
  have quiet : Grammar.extending? minimum rest Grammar.standard.expressions = none :=
    (Grammar.extending_tight minimum rest).mpr tight
  simp only [quiet]
  rfl

theorem spelled_start (node : Node) (token : Token) (more : List Token) (precedence : Nat)
    (start : Reader → Nat → Parse Node) (spelling : node.spelling = token :: more)
    (found : ∀ rest : Cursor, Grammar.starting? (rest.put token) ExpressionForm.standard = some (precedence, start))
    (reads : ∀ (size : Nat) (rest : Cursor), more.length < size → rest.Tight node.edge →
      start (.ofFuel Grammar.standard size) precedence ((rest.before more).put token) = .ok node.unplaced rest) :
    node.Spelled := by
  intro size minimum rest fits _ edge
  rw [spelling, List.length_cons] at fits ⊢
  refine ⟨size, by omega, ?_⟩
  refine (Parse.bind_ok Parse.cursor _ _ _ _ rfl).trans ?_
  have here : Grammar.starting? (rest.before (token :: more)) Grammar.standard.expressions = some (precedence, start) :=
    found (rest.before more)
  simp only [here]
  refine (Parse.bind_ok _ _ _ rest _ (reads size rest (by omega) edge)).trans ?_
  rw [Reader.of_fuel_fuel]

theorem spelled_further (left node : Node) (token : Token) (more : List Token) (precedence : Nat)
    (extend : Reader → Node → Nat → Parse Node) (first : left.Spelled)
    (spelling : node.spelling = left.spelling ++ token :: more) (grip : node.grip = some precedence)
    (above : ∀ minimum : Nat, minimum < precedence → left.grip.Exceeds minimum)
    (edge : ∀ rest : Cursor, (rest.put token).Tight left.edge)
    (found : ∀ (minimum : Nat) (rest : Cursor), minimum < precedence →
      Grammar.extending? minimum (rest.put token) ExpressionForm.standard = some (precedence, extend))
    (reads : ∀ (size : Nat) (rest : Cursor), more.length < size → rest.Tight node.edge →
      extend (.ofFuel Grammar.standard size) left.unplaced precedence ((rest.before more).put token) =
        .ok node.unplaced rest) : node.Spelled := by
  intro size minimum rest fits loose tight
  rw [grip] at loose
  have loose : minimum < precedence := loose precedence rfl
  rw [spelling, List.length_append, List.length_cons] at fits ⊢
  rw [Cursor.before_append, Cursor.before_cons]
  obtain ⟨rounds, enough, same⟩ := first size minimum _ (by omega) (above minimum loose) (edge (rest.before more))
  obtain ⟨rounds, rfl⟩ : ∃ fewer, rounds = fewer + 1 := ⟨rounds - 1, by omega⟩
  refine ⟨rounds, by omega, same.trans (Parse.iterate_again _ rounds _ _ _ _ ?_)⟩
  refine (Parse.bind_ok Parse.cursor _ _ _ _ rfl).trans ?_
  have here : Grammar.extending? minimum ((rest.before more).put token) Grammar.standard.expressions =
    some (precedence, extend) := found minimum (rest.before more) loose
  simp only [here]
  exact Parse.bind_ok _ _ _ rest _ (reads size rest (by omega) tight)

end Node

namespace Token

-- The tokens that expressions start with.
def Opens (token : Token) : Prop :=
  token.kind = .number ∨ token.kind = .text ∨ (token.kind = .word ∧ (token.text ∉ keywords ∨ token.text = "await")) ∨
    (token.kind = .symbol) ∨ (token.kind = .bracket ∧ (token.text = "(" ∨ token.text = "["))

theorem Opens.not_bracket {token : Token} (opens : token.Opens) (text : String) (other : text ∉ ["(", "["]) :
    token.is .bracket text = false := by
  simp only [List.mem_cons, List.not_mem_nil, or_false, not_or] at other
  simp only [is, Bool.and_eq_false_imp, decide_eq_true_eq, decide_eq_false_iff_not]
  intro bracket same
  rcases opens with kind | kind | ⟨kind, _⟩ | kind | ⟨_, round | square⟩
  · simp [bracket] at kind
  · simp [bracket] at kind
  · simp [bracket] at kind
  · simp [bracket] at kind
  · exact other.1 (same.symm.trans round)
  · exact other.2 (same.symm.trans square)

theorem Opens.not_word {token : Token} (opens : token.Opens) (text : String) (reserved : text ∈ keywords)
    (other : text ≠ "await") : token.is .word text = false := by
  simp only [is, Bool.and_eq_false_imp, decide_eq_true_eq, decide_eq_false_iff_not]
  intro word same
  rcases opens with kind | kind | ⟨_, free | await⟩ | kind | ⟨kind, _⟩
  · simp [word] at kind
  · simp [word] at kind
  · exact free (same ▸ reserved)
  · exact other (same.symm.trans await)
  · simp [word] at kind
  · simp [word] at kind

end Token

namespace Node

theorem Expression.opens {node : Node} (expression : node.Expression) :
    ∃ token more, node.spelling = token :: more ∧ token.Opens := by
  induction expression with
  | number value => exact ⟨_, _, by rw [spelling], .inl rfl⟩
  | text value => exact ⟨_, _, by rw [spelling], .inr (.inl rfl)⟩
  | reference name _ free => exact ⟨_, _, by rw [spelling], .inr (.inr (.inl ⟨rfl, .inl free⟩))⟩
  | unary => exact ⟨_, _, by rw [spelling], .inr (.inr (.inr (.inl rfl)))⟩
  | await => exact ⟨_, _, by rw [spelling], .inr (.inr (.inl ⟨rfl, .inr rfl⟩))⟩
  | group => exact ⟨_, _, by rw [spelling]; rfl, .inr (.inr (.inr (.inr ⟨rfl, .inl rfl⟩)))⟩
  | array => exact ⟨_, _, by rw [spelling]; rfl, .inr (.inr (.inr (.inr ⟨rfl, .inr rfl⟩)))⟩
  | assign _ target _ free => exact ⟨_, _, by rw [spelling], .inr (.inr (.inl ⟨rfl, .inl free⟩))⟩
  | binary _ _ left _ _ _ _ _ ih | call _ left _ _ _ _ ih | index _ left _ _ _ _ ih | access _ left _ _ _ _ ih =>
    obtain ⟨token, more, same, opens⟩ := ih
    exact ⟨token, _, by rw [spelling, same]; simp only [List.cons_append]; rfl, opens⟩

theorem item_spelling_length (items : List Node) : items.length ≤ (itemSpelling items).length + 1 := by
  induction items with
  | nil => simp
  | cons item rest ih =>
    rw [itemSpelling]
    cases rest with
    | nil => simp
    | cons next rest =>
      simp only [List.isEmpty_cons, Bool.false_eq_true, if_false, List.length_append, List.length_cons] at ih ⊢
      omega

theorem items_read (size : Nat) (opening : Token) (closing : String) (known : closing ∈ [")", "]"]) (rest : Cursor)
    (item : Node) (items : List Node) (each : ∀ node ∈ item :: items, node.Spelled)
    (fits : (itemSpelling (item :: items)).length < size) (rounds : Nat) (enough : items.length < rounds)
    (done : List Node) :
    Parse.iterate ((Reader.ofFuel Grammar.standard size).listStep opening closing) rounds done
        ((rest.put (.bracket closing)).before (itemSpelling (item :: items))) =
      .ok (done.reverse ++ unplacedAll (item :: items)) rest := by
  induction items generalizing item rounds done with
  | nil =>
    obtain ⟨rounds, rfl⟩ : ∃ fewer, rounds = fewer + 1 := ⟨rounds - 1, by omega⟩
    simp only [itemSpelling, List.isEmpty_nil, if_true, List.append_nil] at fits ⊢
    have closed := (rest.tight_closing closing known)
    have read := (each item List.mem_cons_self).read size 0 _ fits item.grip_pos (closed.loosen _) closed
    refine Parse.iterate_last _ rounds _ _ _ rest ?_
    refine (Parse.bind_ok _ _ _ _ _ read).trans ?_
    refine (Parse.bind_ok _ _ _ _ _ (Parse.take_if_no _ _ rfl)).trans ?_
    refine (Parse.bind_ok _ _ _ _ _ (Parse.expect_closing opening closing rest)).trans ?_
    simp only [List.reverse_cons, unplacedAll]
    rfl
  | cons next items ih =>
    obtain ⟨rounds, rfl⟩ : ∃ fewer, rounds = fewer + 1 := ⟨rounds - 1, by omega⟩
    have spelled : itemSpelling (item :: next :: items) =
      item.spelling ++ .symbol "," :: itemSpelling (next :: items) := by rw [itemSpelling]; rfl
    rw [spelled, List.length_append, List.length_cons] at fits
    rw [spelled, Cursor.before_append, Cursor.before_cons]
    have comma := Cursor.tight_comma ((rest.put (.bracket closing)).before (itemSpelling (next :: items)))
    have read := (each item List.mem_cons_self).read size 0 _ (by omega) item.grip_pos (comma.loosen _) comma
    have round : (Reader.ofFuel Grammar.standard size).listStep opening closing done
        (((((rest.put (.bracket closing)).before (itemSpelling (next :: items))).put (.symbol ",")).before
          item.spelling)) = .ok (.inl (item.unplaced :: done))
        ((rest.put (.bracket closing)).before (itemSpelling (next :: items))) := by
      refine (Parse.bind_ok _ _ _ _ _ read).trans ?_
      exact Parse.bind_ok _ _ _ _ _ (Parse.take_if_yes _ _ _ (by rintro ⟨⟩) rfl)
    rw [Parse.iterate_again _ rounds done _ _ _ round, ih next
      (fun node member => each node (List.mem_cons_of_mem item member)) (by omega) rounds (by simpa using enough)]
    simp only [List.reverse_cons, List.append_assoc, unplacedAll]
    rfl

theorem list_read (size : Nat) (opening : Token) (closing : String) (known : closing ∈ [")", "]"]) (rest : Cursor)
    (items : List Node) (each : ∀ node ∈ items, node.Spelled) (expressions : ∀ node ∈ items, node.Expression)
    (fits : (itemSpelling items).length + 1 < size) :
    (Reader.ofFuel Grammar.standard size).list opening closing
        ((rest.put (.bracket closing)).before (itemSpelling items)) = .ok (unplacedAll items) rest := by
  rw [Reader.list_rounds, Reader.of_fuel_fuel]
  cases items with
  | nil =>
    refine (Parse.bind_ok _ _ _ _ _ (Parse.take_if_yes _ _ rest (by rintro ⟨⟩) ?_)).trans (by rw [unplacedAll]; rfl)
    simp [Cursor.isBracket, Token.is, Token.bracket, Cursor.put]
  | cons item items =>
    obtain ⟨token, more, starts, opens⟩ := (expressions item List.mem_cons_self).opens
    have first : ((rest.put (.bracket closing)).before (itemSpelling (item :: items))).isBracket closing = false := by
      rw [itemSpelling, starts]
      refine opens.not_bracket closing ?_
      simp only [List.mem_cons, List.not_mem_nil, or_false] at known
      rcases known with rfl | rfl <;> decide
    have length := item_spelling_length (item :: items)
    rw [List.length_cons] at length
    refine (Parse.bind_ok _ _ _ _ _ (Parse.take_if_no _ _ first)).trans ?_
    exact items_read size opening closing known rest item items each (by omega) size (by omega) []

section Forms
variable (position : Position)

theorem number_spelled (value : Float) (readable : ∃ text, Number.read? text = some value) : (number value).Spelled := by
  refine spelled_start _ _ [] _ _ (by rw [spelling]) (Grammar.starting_number _ _) fun size rest _ _ => ?_
  refine (Parse.bind_ok _ _ _ _ _ (Parse.take_put _ rest (by rintro ⟨⟩))).trans ?_
  simp only [Number.read_numeral value readable, unplaced]
  rfl

theorem text_spelled (value : String) : (text value).Spelled := by
  refine spelled_start _ _ [] _ _ (by rw [spelling]) (Grammar.starting_text _ _) fun size rest _ _ => ?_
  refine (Parse.bind_ok _ _ _ _ _ (Parse.take_put _ rest (by rintro ⟨⟩))).trans ?_
  simp only [Literal.unescape_quote, unplaced]
  rfl

theorem reference_spelled (name : String) (free : name ∉ keywords) : (reference name position).Spelled := by
  refine spelled_start _ _ [] _ _ (by rw [spelling]) (Grammar.starting_name name · free) fun size rest _ _ => ?_
  refine (Parse.bind_ok _ _ _ _ _ (Parse.take_put _ rest (by rintro ⟨⟩))).trans ?_
  simp only [unplaced]
  rfl

theorem binary_spelled (op : BinaryOp) (left right : Node) (held : left.edge.Allows op.precedence)
    (tighter : right.grip.Exceeds op.precedence) (first : left.Spelled) (second : right.Spelled) :
    (binary "binary" position op left right).Spelled := by
  have most : op.precedence ≤ Precedence.postfixed := by cases op <;> decide
  refine spelled_further left _ (.symbol op.symbol) right.spelling op.precedence _ first (by rw [spelling]) rfl
    (fun minimum => left.held_grip minimum _ held most) (fun rest => rest.tight_operator op _ held)
    (Grammar.extending_binary op) fun size rest fits tight => ?_
  obtain ⟨above, edge⟩ := (rest.tight_lowered _ _).mp tight
  refine (Parse.bind_ok _ _ _ _ _ (Parse.take_put _ _ (by rintro ⟨⟩))).trans ?_
  have symbol : BinaryOp.ofSymbol? (Token.symbol op.symbol).text = some op := BinaryOp.ofSymbol?_symbol op
  simp only [symbol]
  refine (Parse.bind_ok _ _ _ _ _ (second.read size op.precedence rest fits tighter edge above)).trans ?_
  simp only [unplaced]
  rfl

theorem unary_spelled (op : UnaryOp) (operand : Node) (tighter : operand.grip.Exceeds Precedence.unary)
    (inner : operand.Spelled) : (unary "unary" position op operand).Spelled := by
  refine spelled_start _ _ operand.spelling _ _ (by rw [spelling]) (Grammar.starting_unary op) fun size rest fits tight => ?_
  obtain ⟨above, edge⟩ := (rest.tight_lowered _ _).mp tight
  refine (Parse.bind_ok _ _ _ _ _ (Parse.take_put _ _ (by rintro ⟨⟩))).trans ?_
  refine (Parse.bind_ok _ _ _ _ _ (inner.read size Precedence.unary rest fits tighter edge above)).trans ?_
  simp only [unplaced]
  cases op <;> rfl

theorem await_spelled (operand : Node) (tighter : operand.grip.Exceeds Precedence.unary) (inner : operand.Spelled) :
    (await "await" position operand).Spelled := by
  refine spelled_start _ _ operand.spelling _ _ (by rw [spelling]) Grammar.starting_await fun size rest fits tight => ?_
  obtain ⟨above, edge⟩ := (rest.tight_lowered _ _).mp tight
  refine (Parse.bind_ok _ _ _ _ _ (Parse.take_put _ _ (by rintro ⟨⟩))).trans ?_
  refine (Parse.bind_ok _ _ _ _ _ (inner.read size Precedence.unary rest fits tighter edge above)).trans ?_
  simp only [unplaced]
  rfl

theorem group_spelled (inner : Node) (content : inner.Spelled) : (group "group" position inner).Spelled := by
  refine spelled_start _ _ (inner.spelling ++ [.bracket ")"]) _ _ (by rw [spelling]; rfl) Grammar.starting_group
    fun size rest fits _ => ?_
  rw [List.length_append, List.length_singleton] at fits
  rw [Cursor.before_append, Cursor.before_cons, Cursor.before_nil]
  have closed := rest.tight_closing ")" (by decide)
  have read := content.read size 0 _ (by omega) inner.grip_pos (closed.loosen _) closed
  refine (Parse.bind_ok _ _ _ _ _ (Parse.take_put _ _ (by rintro ⟨⟩))).trans ?_
  refine (Parse.bind_ok _ _ _ _ _ read).trans ?_
  refine (Parse.bind_ok _ _ _ _ _ (Parse.expect_closing _ ")" rest)).trans ?_
  simp only [unplaced]
  rfl

theorem array_spelled (items : List Node) (expressions : ∀ item ∈ items, item.Expression)
    (each : ∀ item ∈ items, item.Spelled) : (array "array" position items).Spelled := by
  refine spelled_start _ _ (itemSpelling items ++ [.bracket "]"]) _ _ (by rw [spelling]; rfl) Grammar.starting_array
    fun size rest fits _ => ?_
  rw [List.length_append, List.length_singleton] at fits
  rw [Cursor.before_append, Cursor.before_cons, Cursor.before_nil]
  refine (Parse.bind_ok _ _ _ _ _ (Parse.take_put _ _ (by rintro ⟨⟩))).trans ?_
  have read := list_read size (.bracket "[") "]" (by decide) rest items each expressions fits
  refine (Parse.bind_ok _ _ _ _ _ read).trans ?_
  simp only [unplaced]
  rfl

theorem call_spelled (callee : Node) (arguments : List Node) (held : callee.edge.Allows Precedence.postfixed)
    (expressions : ∀ argument ∈ arguments, argument.Expression) (first : callee.Spelled)
    (each : ∀ argument ∈ arguments, argument.Spelled) : (call "call" position callee arguments).Spelled := by
  refine spelled_further callee _ (.bracket "(") (itemSpelling arguments ++ [.bracket ")"]) Precedence.postfixed _ first
    (by rw [spelling]; simp) rfl (fun minimum => callee.held_grip minimum _ held (Nat.le_refl _))
    (fun rest => rest.tight_opening "(" _ held) Grammar.extending_call fun size rest fits _ => ?_
  rw [List.length_append, List.length_singleton] at fits
  rw [Cursor.before_append, Cursor.before_cons, Cursor.before_nil]
  refine (Parse.bind_ok _ _ _ _ _ (Parse.take_put _ _ (by rintro ⟨⟩))).trans ?_
  have read := list_read size (.bracket "(") ")" (by decide) rest arguments each expressions fits
  refine (Parse.bind_ok _ _ _ _ _ read).trans ?_
  simp only [unplaced]
  rfl

theorem index_spelled (object place : Node) (held : object.edge.Allows Precedence.postfixed) (first : object.Spelled)
    (second : place.Spelled) : (index "index" position object place).Spelled := by
  refine spelled_further object _ (.bracket "[") (place.spelling ++ [.bracket "]"]) Precedence.postfixed _ first
    (by rw [spelling]; simp) rfl (fun minimum => object.held_grip minimum _ held (Nat.le_refl _))
    (fun rest => rest.tight_opening "[" _ held) Grammar.extending_index fun size rest fits _ => ?_
  rw [List.length_append, List.length_singleton] at fits
  rw [Cursor.before_append, Cursor.before_cons, Cursor.before_nil]
  have closed := rest.tight_closing "]" (by decide)
  have read := second.read size 0 _ (by omega) place.grip_pos (closed.loosen _) closed
  refine (Parse.bind_ok _ _ _ _ _ (Parse.take_put _ _ (by rintro ⟨⟩))).trans ?_
  refine (Parse.bind_ok _ _ _ _ _ read).trans ?_
  refine (Parse.bind_ok _ _ _ _ _ (Parse.expect_closing _ "]" rest)).trans ?_
  simp only [unplaced]
  rfl

theorem access_spelled (object : Node) (member : String) (free : member ∉ keywords)
    (held : object.edge.Allows Precedence.postfixed) (first : object.Spelled) :
    (access "access" position object member).Spelled := by
  refine spelled_further object _ (.symbol ".") [.word member] Precedence.postfixed _ first (by rw [spelling]) rfl
    (fun minimum => object.held_grip minimum _ held (Nat.le_refl _)) (fun rest => rest.tight_point _ held)
    Grammar.extending_access fun size rest _ _ => ?_
  rw [Cursor.before_cons, Cursor.before_nil]
  refine (Parse.bind_ok _ _ _ _ _ (Parse.take_put _ _ (by rintro ⟨⟩))).trans ?_
  refine (Parse.bind_ok _ _ _ _ _ (Parse.expect_name "member name" member rest free)).trans ?_
  simp only [unplaced]
  rfl

-- The name is read as a variable first, and the sign then goes on behind it.
theorem assign_spelled (target : String) (value : Node) (free : target ∉ keywords) (second : value.Spelled) :
    (assign "assign" position target value).Spelled := by
  refine spelled_further (.reference target position) _ (.symbol "=") value.spelling Precedence.assignment _
    (reference_spelled position target free) (by rw [spelling, spelling]; rfl) rfl
    (fun _ _ => Limit.exceeds_none _) (fun rest => Cursor.tight_none _) Grammar.extending_assign
    fun size rest fits tight => ?_
  refine (Parse.bind_ok _ _ _ _ _ (Parse.take_put _ _ (by rintro ⟨⟩))).trans ?_
  have read := second.read size 0 rest fits value.grip_pos (tight.loosen _) tight
  simp only [unplaced]
  exact Parse.bind_ok _ _ _ _ _ read

end Forms

theorem Expression.spelled {node : Node} (expression : node.Expression) : node.Spelled := by
  induction expression with
  | number value readable => exact number_spelled value readable
  | text value => exact text_spelled value
  | reference name position free => exact reference_spelled position name free
  | binary position op left right _ _ held tighter first second =>
    exact binary_spelled position op left right held tighter first second
  | unary position op operand _ tighter inner => exact unary_spelled position op operand tighter inner
  | await position operand _ tighter inner => exact await_spelled position operand tighter inner
  | group position inner _ content => exact group_spelled position inner content
  | array position items expressions each => exact array_spelled position items expressions each
  | call position callee arguments _ expressions held first each =>
    exact call_spelled position callee arguments held expressions first each
  | index position object place _ _ held first second => exact index_spelled position object place held first second
  | access position object member _ free held first => exact access_spelled position object member free held first
  | assign position target value free _ second => exact assign_spelled position target value free second

end Node

end CoopScript
