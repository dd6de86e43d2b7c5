import CoopScript.Proofs.Source.Look
import Mathlib.Data.List.Basic

set_option autoImplicit false
namespace CoopScript

-- What the pattern takes from the front of a text is settled by a character behind the text: it and more change
-- nothing.
def Pattern.SettledBy (stop : Char) (pattern : Pattern) : Prop := ∀ input more found,
  pattern.recognize input = .ok found → pattern.recognize (input ++ stop :: more) = .ok found

-- What the pattern takes from the front of a text is settled by the end of the line: a newline and more behind the
-- text change nothing.
def Pattern.Settled (pattern : Pattern) : Prop := ∀ input more found,
  pattern.recognize input = .ok found → pattern.recognize (input ++ '\n' :: more) = .ok found

namespace Text

theorem blank_range (c : Char) (above : 0x20 < c.toNat) (ascii : c.toNat < 0x80) : isBlank c = false := by
  simp [isBlank, blankRanges]
  omega

theorem word_range (c : Char) (part : Recognizer.isWordPart c = true) : 0x20 < c.toNat ∧ c.toNat < 0x80 := by
  delta Recognizer.isWordPart Char.isAlphanum Char.isAlpha Char.isUpper Char.isLower Char.isDigit at part
  simp only [Bool.or_eq_true, Bool.and_eq_true, decide_eq_true_eq, ge_iff_le, UInt32.le_iff_toNat_le] at part
  have number : c.toNat = c.val.toNat := rfl
  rcases part with ((⟨least, most⟩ | ⟨least, most⟩) | ⟨least, most⟩) | rfl
  · simp at least most
    omega
  · simp at least most
    omega
  · simp at least most
    omega
  · decide

theorem blank_word (c : Char) (blank : isBlank c = true) : Recognizer.isWordPart c = false := by
  cases part : Recognizer.isWordPart c with
  | false => rfl
  | true =>
    obtain ⟨above, ascii⟩ := word_range c part
    cases blank.symm.trans (blank_range c above ascii)

theorem blank_digit (c : Char) (blank : isBlank c = true) : c.isDigit = false := by
  have part := blank_word c blank
  simp only [Recognizer.isWordPart, Char.isAlphanum, Bool.or_eq_false_iff] at part
  exact part.1.2

theorem blank_start (c : Char) (blank : isBlank c = true) : Recognizer.isWordStart c = false := by
  have part := blank_word c blank
  simp only [Recognizer.isWordPart, Char.isAlphanum, Bool.or_eq_false_iff] at part
  simp only [Recognizer.isWordStart, part.1.1, part.2, Bool.or_self]

theorem blank_other (c other : Char) (blank : isBlank c = true) (dark : isBlank other = false) : c ≠ other := by
  rintro rfl
  cases blank.symm.trans dark

end Text

section Ended
variable (stop : Char) (input more : List Char)

theorem take_while_ended (test : Char → Bool) (stops : test stop = false) :
    (input ++ stop :: more).takeWhile test = input.takeWhile test := by
  induction input with
  | nil => simp [stops]
  | cons c rest ih =>
    rw [List.cons_append, List.takeWhile_cons, List.takeWhile_cons, ih]

theorem prefix_ended (text : List Char) (none : stop ∉ text) :
    text.isPrefixOf (input ++ stop :: more) = text.isPrefixOf input := by
  induction text generalizing input with
  | nil => rfl
  | cons c text ih =>
    obtain ⟨other, rest⟩ := not_or.mp fun same => none (List.mem_cons.mpr same)
    cases input with
    | nil => simp [List.isPrefixOf, Ne.symm other]
    | cons d input => simp only [List.cons_append, List.isPrefixOf, ih input rest]

namespace Recognizer

theorem comment_length_least (length : Nat) (closed : commentLength input = some length) : 2 ≤ length := by
  fun_induction commentLength input generalizing length with
  | case1 => cases closed
  | case2 => exact Nat.le_of_eq (Option.some.inj closed)
  | case3 c rest unclosed ih =>
    obtain ⟨shorter, same, rfl⟩ := Option.map_eq_some_iff.mp closed
    exact Nat.le_succ_of_le (ih shorter same)

theorem comment_length_plain (c : Char) (rest : List Char) (plain : ∀ more, c = '*' → rest ≠ '/' :: more) :
    commentLength (c :: rest) = (commentLength rest).map (· + 1) := by
  rw [commentLength]
  exact fun more star slash => plain more star slash

theorem comment_length_within (front back other : List Char) (length : Nat)
    (closed : commentLength (front ++ back) = some length) (within : length ≤ front.length) :
    commentLength (front ++ other) = some length := by
  induction front generalizing length with
  | nil => exact absurd (comment_length_least _ length closed) (by simp only [List.length_nil] at within; omega)
  | cons c rest ih =>
    by_cases closes : ∃ more, c = '*' ∧ rest ++ back = '/' :: more
    · obtain ⟨more, rfl, slash⟩ := closes
      rw [List.cons_append, slash] at closed
      cases rest with
      | nil => exact absurd (Option.some.inj closed) (by simp only [List.length_singleton] at within; omega)
      | cons d rest =>
        obtain ⟨rfl, -⟩ := List.cons.inj slash
        exact closed
    · have plain (more : List Char) (star : c = '*') : rest ++ back ≠ '/' :: more := fun slash => closes ⟨more, star, slash⟩
      rw [List.cons_append, comment_length_plain c _ plain] at closed
      obtain ⟨shorter, same, rfl⟩ := Option.map_eq_some_iff.mp closed
      have least := comment_length_least _ shorter same
      simp only [List.length_cons, Nat.add_le_add_iff_right] at within
      rw [List.cons_append, comment_length_plain c _ (fun more star slash => ?_), ih shorter same within]
      · rfl
      · cases rest with
        | nil => exact absurd least (by simp only [List.length_nil] at within; omega)
        | cons d rest =>
          obtain ⟨rfl, -⟩ := List.cons.inj slash
          exact plain _ star rfl

theorem quote_cases (quote : Char) (mark : quote ∈ quoteMarks) : quote = '\x22' ∨ quote = '\x27' ∨ quote = '\x60' := by
  simpa only [quoteMarks, List.mem_cons, List.not_mem_nil, or_false] using mark

theorem quote_dark (quote : Char) (mark : quote ∈ quoteMarks) : Text.isBlank quote = false := by
  rcases quote_cases quote mark with rfl | rfl | rfl <;> rfl

theorem text_length_plain (quote c : Char) (rest : List Char) (plain : c ≠ '\x5c') : textLength quote (c :: rest) =
    if c = quote then some 1 else (textLength quote rest).map (· + 1) := by
  cases rest <;> simp [textLength, plain]

theorem text_length_least (quote : Char) (length : Nat) (closed : textLength quote input = some length) : 1 ≤ length := by
  fun_induction textLength quote input generalizing length with
  | case1 | case2 => cases closed
  | case4 => exact Nat.le_of_eq (Option.some.inj closed)
  | case3 | case5 =>
    obtain ⟨shorter, same, rfl⟩ := Option.map_eq_some_iff.mp closed
    exact Nat.succ_pos _

theorem text_length_within (quote : Char) (front back other : List Char) (length : Nat)
    (closed : textLength quote (front ++ back) = some length) (within : length ≤ front.length) :
    textLength quote (front ++ other) = some length := by
  fun_induction textLength quote front generalizing length with
  | case1 =>
    exact absurd (text_length_least _ quote length closed) (by simp only [List.length_nil] at within; omega)
  | case2 =>
    cases back with
    | nil => cases closed
    | cons hidden rest =>
      obtain ⟨shorter, same, rfl⟩ := Option.map_eq_some_iff.mp closed
      simp only [List.length_singleton] at within
      omega
  | case3 hidden rest ih =>
    obtain ⟨shorter, same, rfl⟩ := Option.map_eq_some_iff.mp closed
    simp only [List.length_cons, Nat.add_le_add_iff_right] at within
    simp [textLength, ih shorter same within]
  | case4 rest last hidden =>
    have plain : quote ≠ '\x5c' := fun escapes => by
      cases rest with
      | nil => exact last escapes rfl
      | cons c rest => exact hidden c rest escapes rfl
    rw [List.cons_append, text_length_plain quote quote _ plain, if_pos rfl] at closed ⊢
    exact closed
  | case5 c rest last hidden marked ih =>
    have plain : c ≠ '\x5c' := fun escapes => by
      cases rest with
      | nil => exact last escapes rfl
      | cons d rest => exact hidden d rest escapes rfl
    rw [List.cons_append, text_length_plain quote c _ plain, if_neg marked] at closed ⊢
    obtain ⟨shorter, same, rfl⟩ := Option.map_eq_some_iff.mp closed
    simp only [List.length_cons, Nat.add_le_add_iff_right] at within
    rw [ih shorter same within]
    rfl

theorem comment_none (blank : Text.isBlank stop = true) (idle : comment input = .ok none) :
    comment (input ++ stop :: more) = .ok none := by
  have slash := Text.blank_other stop '/' blank (by decide)
  have star := Text.blank_other stop '*' blank (by decide)
  unfold comment at idle
  split at idle
  next rest => cases idle
  next rest => split at idle <;> cases idle
  next line block =>
    rcases input with _ | ⟨c, _ | ⟨d, rest⟩⟩
    · simp [comment, slash]
    · simp [comment, slash, star]
    · simp only [List.cons_append, comment]
      split
      next same => exact absurd (by injection same with first same; injection same with second; rw [first, second]) (line rest)
      next same => exact absurd (by injection same with first same; injection same with second; rw [first, second]) (block rest)
      next => rfl

theorem comment_settled : (Pattern.custom comment).Settled := by
  intro input more found taken
  cases found with
  | none => exact comment_none '\n' input more Text.isBlank_newline taken
  | some length =>
    simp only [Pattern.recognize] at taken ⊢
    unfold comment at taken
    split at taken
    next rest =>
      cases taken
      rw [List.cons_append, List.cons_append, comment, take_while_ended '\n' rest more _ (by decide)]
    next rest =>
      split at taken
      next length closed =>
        cases taken
        have within := comment_length_within rest [] ('\n' :: more) length (by rwa [List.append_nil])
          (comment_length_inside rest length closed)
        rw [List.cons_append, List.cons_append, comment, within]
      next => cases taken
    next => cases taken

section Blank
variable (blank : Text.isBlank stop = true)
include blank

theorem number_settled : (Pattern.custom number).SettledBy stop := by
  intro input more found taken
  have digits (text : List Char) : digitsLength (text ++ stop :: more) = digitsLength text :=
    congrArg List.length (take_while_ended stop text more Char.isDigit (Text.blank_digit stop blank))
  have within : digitsLength input ≤ input.length := (List.takeWhile_prefix Char.isDigit).length_le
  simp only [Pattern.recognize, number, digits] at taken ⊢
  split at taken
  next none => simpa [none] using taken
  next some =>
    rw [if_neg some, List.drop_append_of_le_length within]
    split at taken
    next rest pointed =>
      rw [pointed]
      simp only [List.cons_append, digits]
      exact taken
    next plain =>
      cases left : input.drop (digitsLength input) with
      | nil => simpa [Text.blank_other stop '.' blank (by decide)] using taken
      | cons c rest =>
        have other : c ≠ '.' := fun point => plain rest (left.trans (by rw [point]))
        simpa [other] using taken

theorem word_settled : (Pattern.custom word).SettledBy stop := by
  intro input more found taken
  simp only [Pattern.recognize] at taken ⊢
  cases input with
  | nil => simpa [word, Text.blank_start stop blank] using taken
  | cons c rest =>
    rw [List.cons_append]
    simp only [word, take_while_ended stop rest more isWordPart (Text.blank_word stop blank)] at taken ⊢
    exact taken

theorem text_settled : (Pattern.custom text).SettledBy stop := by
  intro input more found taken
  simp only [Pattern.recognize] at taken ⊢
  cases input with
  | nil =>
    have unquoted : stop ∉ quoteMarks := fun mark => Text.blank_other stop stop blank (quote_dark stop mark) rfl
    simpa [text, unquoted] using taken
  | cons quote rest =>
    rw [List.cons_append]
    simp only [text] at taken ⊢
    split at taken
    next opens =>
      rw [if_pos opens]
      split at taken
      next length closed =>
        have within := text_length_within quote rest [] (stop :: more) length (by rwa [List.append_nil])
          (text_length_inside quote rest length closed)
        rw [within]
        exact taken
      next => cases taken
    next other =>
      rw [if_neg other]
      exact taken

end Blank
end Recognizer

namespace Pattern

theorem fixed_length_ended (text : String) (none : stop ∉ text.toList) :
    fixedLength text (input ++ stop :: more) = fixedLength text input := by
  unfold fixedLength
  rw [prefix_ended stop input more text.toList none]

theorem fixed_settled (text : String) (none : stop ∉ text.toList) : (fixed text).SettledBy stop := by
  intro input more found taken
  simp only [recognize, fixed_length_ended stop input more text none] at taken ⊢
  exact taken

theorem one_of_settled (options : List String) (none : ∀ option ∈ options, stop ∉ option.toList) :
    (oneOf options).SettledBy stop := by
  intro input more found taken
  rw [← taken]
  refine congrArg Except.ok (List.foldl_ext _ _ _ fun best option listed => ?_)
  rw [fixed_length_ended stop input more option (none option listed)]

end Pattern
end Ended

namespace LexRule

-- No standard rule takes a blank to what it began before it, but for comments and what has to have more.
theorem standard_settled_by (stop : Char) (blank : Text.isBlank stop = true) (rule : LexRule) (member : rule ∈ standard)
    (other : rule.kind ≠ .comment) : rule.pattern.SettledBy stop := by
  have apart (text : List Char) (dark : text.any Text.isBlank = false) : stop ∉ text := fun inside =>
    List.any_eq_false.mp dark stop inside blank
  have all (options : List String) (dark : ∀ option ∈ options, option.toList.any Text.isBlank = false) :
      ∀ option ∈ options, stop ∉ option.toList := fun option listed => apart _ (dark option listed)
  simp only [standard, List.mem_cons, List.not_mem_nil, or_false] at member
  rcases member with rfl | rfl | rfl | rfl | rfl | rfl | rfl | rfl
  · exact absurd rfl other
  · exact Recognizer.number_settled stop blank
  · exact Recognizer.word_settled stop blank
  · exact Recognizer.text_settled stop blank
  · exact Pattern.one_of_settled stop _ (all _ (by decide))
  · exact Pattern.one_of_settled stop _ (all _ (by decide))
  · exact Pattern.one_of_settled stop _ (all _ (by decide))
  · exact Pattern.fixed_settled stop _ (apart _ (by decide))

-- No standard rule takes a newline to what it began on the line before, unless it has to have more.
theorem standard_settled (rule : LexRule) (member : rule ∈ standard) : rule.pattern.Settled := by
  by_cases comments : rule.kind = .comment
  · simp only [standard, List.mem_cons, List.not_mem_nil, or_false] at member
    rcases member with rfl | rfl | rfl | rfl | rfl | rfl | rfl | rfl
    · exact Recognizer.comment_settled
    all_goals cases comments
  · exact standard_settled_by '\n' Text.isBlank_newline rule member comments

theorem chosen_same (rules : List LexRule) (input other : List Char) (rule : LexRule) (length : Nat)
    (chosen : Chosen rules input rule length)
    (same : ∀ rule ∈ rules, rule.pattern.recognize other = rule.pattern.recognize input) :
    Chosen rules other rule length := by
  have member := chosen_member rules input rule length chosen
  obtain ⟨before, after, split, early⟩ := chosen.earliest
  refine ⟨fun rival known => ?_, ?_, chosen.something, fun rival known => ?_, before, after, split, fun rival listed => ?_⟩
  · rw [same rival known]
    exact chosen.sound rival known
  · rw [same rule member]
    exact chosen.takes
  · rw [same rival known]
    exact chosen.longest rival known
  · rw [same rival (split ▸ List.mem_append_left _ listed)]
    exact early rival listed

variable (rules : List LexRule) (settled : ∀ rule ∈ rules, rule.pattern.Settled) (input more : List Char)
include settled

theorem chosen_ended (rule : LexRule) (length : Nat) (chosen : Chosen rules input rule length) :
    Chosen rules (input ++ '\n' :: more) rule length := by
  refine chosen_same rules input _ rule length chosen fun other member => ?_
  cases recognized : other.pattern.recognize input with
  | error cause => exact absurd recognized (chosen.sound other member cause)
  | ok found => exact settled other member input more found recognized

end LexRule

theorem Cut.ended (rules : List LexRule) (settled : ∀ rule ∈ rules, rule.pattern.Settled) (input rest more : List Char)
    (pieces : List Piece) (cut : Cut rules input pieces rest) :
    Cut rules (input ++ '\n' :: more) pieces (rest ++ '\n' :: more) := by
  induction cut with
  | here rest => exact .here _
  | blank c input rest pieces white further ih => exact .blank c _ _ _ white ih
  | taken rule c text input rest pieces dark chosen further ih =>
    have longer := LexRule.chosen_ended rules settled _ more rule _ chosen
    rw [List.append_assoc] at longer ⊢
    exact .taken rule c text _ _ _ dark longer ih

-- Where a place comes to stand when the text is put on the lines before it.
def Position.below (text : String) (place : Position) : Position :=
  { place with
    line := place.line + (text.toList.count '\n' + 1)
    offset := place.offset + (text.utf8ByteSize + 1) }

def Token.below (text : String) (token : Token) : Token := { token with position := token.position.below text }

def Diagnostic.below (text : String) (diagnostic : Diagnostic) : Diagnostic :=
  { diagnostic with position := diagnostic.position.map (Position.below text) }

namespace Position

theorem text_bytes (text : String) : (text.toList.map Char.utf8Size).sum = text.utf8ByteSize := by
  have all (input : List Char) : (input.map Char.utf8Size).sum = (String.ofList input).utf8ByteSize := by
    induction input with
    | nil => rfl
    | cons c rest ih =>
      rw [List.map_cons, List.sum_cons, ih, ← List.singleton_append, String.ofList_append, String.utf8ByteSize_append,
        ← String.singleton_eq_ofList, String.utf8ByteSize_singleton]
  rw [all, String.ofList_toList]

theorem behind_below (file : Option String) (text : String) (input : List Char) :
    behind file (text.toList ++ '\n' :: input) = (behind file input).below text := by
  have column : (text.toList ++ '\n' :: input).reverse.takeWhile (· ≠ '\n') = input.reverse.takeWhile (· ≠ '\n') := by
    rw [List.reverse_append, List.reverse_cons, List.append_assoc, List.singleton_append]
    exact take_while_ended '\n' _ _ _ (by decide)
  have newline : ('\n' : Char).utf8Size = 1 := rfl
  simp only [behind, below, column, List.count_append, List.count_cons_self, List.map_append, List.map_cons,
    List.sum_append_nat, List.sum_cons, text_bytes, newline, mk.injEq, and_true, true_and]
  omega

end Position

theorem Piece.tokens_below (file : Option String) (text : String) (before : List Char) (pieces : List Piece) :
    tokens file (text.toList ++ '\n' :: before) pieces = (tokens file before pieces).map (Token.below text) := by
  induction pieces generalizing before with
  | nil => rfl
  | cons piece rest ih =>
    rw [tokens, tokens, List.map_append, List.append_assoc, List.cons_append, ih]
    refine congrArg (· ++ _) ?_
    cases piece with
    | blank c => rfl
    | taken rule taken =>
      simp only [token?, Position.behind_below]
      cases rule.kind.isTrivia <;> rfl

/-- Where a source is accepted, one on the lines behind it is accepted or refused as it is alone. Its tokens follow those of
the first without their end mark, and they, or the fault, stand as many lines and bytes further on as the first source and the
newline take up, in the columns in which they stand alone. -/
theorem lines_cut_apart (first second : String) (file : Option String) (tokens : List Token)
    (read : tokenize LexRule.standard first file = .ok tokens) :
    ∃ front mark, tokens = front ++ [mark] ∧ mark.look = (.finish, "") ∧ (∀ token ∈ front, token.kind ≠ .finish) ∧
      tokenize LexRule.standard (first ++ "\n" ++ second) file = match tokenize LexRule.standard second file with
        | .ok others => .ok (front ++ others.map (Token.below first))
        | .error diagnostic => .error (diagnostic.below first) := by
  obtain ⟨pieces, cut, whole⟩ := Token.read_whole first file tokens read
  obtain ⟨front, mark, split, ended, inside⟩ := Token.read_finish first file tokens read
  obtain ⟨same, -⟩ := List.append_inj' (split.symm.trans whole) rfl
  obtain ⟨more, rest, fault, further, stuck⟩ :=
    Cut.until_stuck LexRule.standard LexRule.standard_within second.toList
  refine ⟨front, mark, split, ended, inside, ?_⟩
  have joined : Cut LexRule.standard (first ++ "\n" ++ second).toList (pieces ++ .blank '\n' :: more) rest := by
    have behind := Cut.ended _ LexRule.standard_settled _ _ second.toList pieces cut
    have text : (first ++ "\n" ++ second).toList = first.toList ++ '\n' :: second.toList := by simp
    exact text ▸ behind.joined _ _ _ _ _ _ (.blank '\n' _ _ _ Text.isBlank_newline further)
  have texts : Piece.texts pieces = first.toList := by simpa using cut.whole.symm
  have given : Piece.tokens file [] (pieces ++ .blank '\n' :: more) =
      front ++ (Piece.tokens file [] more).map (Token.below first) := by
    rw [Piece.tokens_append, same, texts, ← Piece.tokens_below]
    rfl
  have place : Position.behind file (Piece.texts (pieces ++ .blank '\n' :: more)) =
      (Position.behind file (Piece.texts more)).below first := by
    rw [Piece.texts_append, texts, ← Position.behind_below]
    rfl
  rw [Token.tokenize_cut LexRule.standard file _ rest _ fault joined stuck,
    Token.tokenize_cut LexRule.standard file second rest more fault further stuck, given, place]
  cases fault with
  | none => simp [Token.below]
  | some cause => rfl

-- A text over two lines and a comment, with characters of two bytes.
theorem lines_cut_apart_accents : ∃ tokens front mark,
    tokenize LexRule.standard "x = 'é\n' // ü" none = .ok tokens ∧ tokens = front ++ [mark] ∧
      tokenize LexRule.standard ("x = 'é\n' // ü" ++ "\n" ++ " y") none =
        .ok (front ++ [⟨.word, "y", ⟨3, 2, 17, none⟩⟩, ⟨.finish, "", ⟨3, 3, 18, none⟩⟩]) := by
  have accepted : (tokenize LexRule.standard "x = 'é\n' // ü" none).isOk = true := by decide +kernel
  have second : tokenize LexRule.standard " y" none =
      .ok [⟨.word, "y", ⟨1, 2, 1, none⟩⟩, ⟨.finish, "", ⟨1, 3, 2, none⟩⟩] := by rfl
  cases read : tokenize LexRule.standard "x = 'é\n' // ü" none with
  | error diagnostic =>
    rw [read] at accepted
    cases accepted
  | ok tokens =>
    obtain ⟨front, mark, split, _, _, joined⟩ := lines_cut_apart _ " y" none tokens read
    rw [second] at joined
    exact ⟨tokens, front, mark, rfl, split, joined⟩

end CoopScript
