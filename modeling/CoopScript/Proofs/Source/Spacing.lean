import CoopScript.Proofs.Source.Lines

set_option autoImplicit false
namespace CoopScript

-- White space between two tokens, of one character or more.
structure Gap where
  text : String
  something : text.toList ≠ []
  blank : ∀ c ∈ text.toList, Text.isBlank c = true

-- Texts one behind the other with a gap between any two of them.
def spaced (gaps : Nat → Gap) : List String → String
  | [] => ""
  | [text] => text
  | text :: next :: rest => text ++ (gaps 0).text ++ spaced (fun place => gaps (place + 1)) (next :: rest)

-- If the pattern takes no more of a longer text than there is of a shorter one, it takes the same of the shorter one.
def Pattern.Cropped (pattern : Pattern) : Prop := ∀ c front back found,
  pattern.recognize (c :: front ++ back) = .ok found → (∀ length ∈ found, length ≤ (c :: front).length) →
    pattern.recognize (c :: front) = .ok found

section Cropped

theorem take_while_cropped (front back : List Char) (test : Char → Bool)
    (within : ((front ++ back).takeWhile test).length ≤ front.length) :
    front.takeWhile test = (front ++ back).takeWhile test := by
  rw [List.takeWhile_append] at within ⊢
  split
  next all =>
    rw [if_pos all, List.length_append] at within
    have nothing : back.takeWhile test = [] := List.length_eq_zero_iff.mp (by omega)
    rw [nothing, List.append_nil]
    exact (List.takeWhile_prefix test).eq_of_length all
  next => rfl

namespace Recognizer

theorem digits_cropped (front back : List Char) (within : digitsLength (front ++ back) ≤ front.length) :
    digitsLength front = digitsLength (front ++ back) :=
  congrArg List.length (take_while_cropped front back Char.isDigit within)

theorem comment_least (input : List Char) (length : Nat) (taken : comment input = .ok (some length)) : 2 ≤ length := by
  unfold comment at taken
  split at taken
  next =>
    cases taken
    exact Nat.le_add_right 2 _
  next =>
    split at taken
    next =>
      cases taken
      exact Nat.le_add_right 2 _
    next => cases taken
  next => cases taken

theorem comment_stroke (c : Char) (rest : List Char) (length : Nat) (taken : comment (c :: rest) = .ok (some length)) :
    c = '/' := by
  unfold comment at taken
  split at taken
  next same => exact (List.cons.inj same).1
  next same => exact (List.cons.inj same).1
  next => cases taken

theorem comment_cropped : (Pattern.custom comment).Cropped := by
  intro c front back found taken within
  simp only [Pattern.recognize] at taken ⊢
  rcases front with _ | ⟨d, rest⟩
  · cases found with
    | none => simp [comment]
    | some length => exact absurd (comment_least _ length taken) (Nat.not_le.mpr (Nat.lt_succ_of_le (within length rfl)))
  · simp only [List.cons_append, comment] at taken ⊢
    split at taken
    next slashes =>
      obtain ⟨rfl, second⟩ := List.cons.inj slashes
      obtain ⟨rfl, rfl⟩ := List.cons.inj second
      cases taken
      have short := within _ rfl
      simp only [List.length_cons] at short
      simp only [take_while_cropped rest back (· ≠ '\n') (by omega)]
    next star =>
      obtain ⟨rfl, second⟩ := List.cons.inj star
      obtain ⟨rfl, rfl⟩ := List.cons.inj second
      split at taken
      next length closed =>
        cases taken
        have short := within _ rfl
        simp only [List.length_cons] at short
        have alone := comment_length_within rest back [] length closed (by omega)
        rw [List.append_nil] at alone
        simp only [alone]
      next => cases taken
    next line block =>
      split
      next slashes =>
        obtain ⟨rfl, second⟩ := List.cons.inj slashes
        obtain ⟨rfl, -⟩ := List.cons.inj second
        exact absurd rfl (line _)
      next star =>
        obtain ⟨rfl, second⟩ := List.cons.inj star
        obtain ⟨rfl, -⟩ := List.cons.inj second
        exact absurd rfl (block _)
      next => exact taken

theorem number_cropped : (Pattern.custom number).Cropped := by
  intro c front back found taken within
  generalize c :: front = text at taken within ⊢
  simp only [Pattern.recognize, number] at taken ⊢
  split at taken
  next none =>
    cases taken
    rw [if_pos (by rw [digits_cropped text back (by omega), none])]
  next some =>
    have least : digitsLength (text ++ back) ≤ text.length := by
      split at taken
      next =>
        cases taken
        have short := within _ rfl
        split at short <;> omega
      next =>
        cases taken
        exact within _ rfl
    have whole := digits_cropped text back least
    rw [whole, if_neg some]
    rw [List.drop_append_of_le_length least] at taken
    split at taken
    next rest pointed =>
      cases taken
      have short := within _ rfl
      cases left : text.drop (digitsLength (text ++ back)) with
      | nil =>
        have size := congrArg List.length left
        simp only [List.length_drop, List.length_nil] at size
        split at short
        next nothing => simp only [nothing, if_true]
        next => omega
      | cons d fraction =>
        have size := congrArg List.length left
        simp only [List.length_drop, List.length_cons] at size
        rw [left, List.cons_append] at pointed
        obtain ⟨rfl, rfl⟩ := List.cons.inj pointed
        have same := digits_cropped fraction back (by split at short <;> omega)
        simp only [same]
    next plain =>
      cases taken
      split
      next rest pointed => exact absurd (by rw [pointed]; rfl) (plain (rest ++ back))
      next => rfl

theorem word_cropped : (Pattern.custom word).Cropped := by
  intro c rest back found taken within
  simp only [Pattern.recognize, List.cons_append, word] at taken ⊢
  split at taken
  next starts =>
    cases taken
    have short := within _ rfl
    simp only [List.length_cons] at short
    rw [if_pos starts, take_while_cropped rest back isWordPart (by omega)]
  next other =>
    rw [if_neg other]
    exact taken

theorem text_cropped : (Pattern.custom text).Cropped := by
  intro quote rest back found taken within
  simp only [Pattern.recognize, List.cons_append, text] at taken ⊢
  split at taken
  next opens =>
    split at taken
    next length closed =>
      cases taken
      have short := within _ rfl
      simp only [List.length_cons] at short
      have alone := text_length_within quote rest back [] length closed (by omega)
      rw [List.append_nil] at alone
      simp only [if_pos opens, alone]
    next => cases taken
  next other =>
    rw [if_neg other]
    exact taken

end Recognizer

namespace Pattern

theorem fixed_length_cropped (text : String) (front back : List Char)
    (within : ∀ length ∈ fixedLength text (front ++ back), length ≤ front.length) :
    fixedLength text front = fixedLength text (front ++ back) := by
  unfold fixedLength at within ⊢
  split at within
  next leads =>
    have short := within _ rfl
    have shorter := List.prefix_of_prefix_length_le (List.isPrefixOf_iff_prefix.mp leads) (List.prefix_append front back) short
    rw [if_pos (List.isPrefixOf_iff_prefix.mpr shorter), if_pos leads]
  next other =>
    have alone : ¬ text.toList.isPrefixOf front = true := fun leads =>
      other (List.isPrefixOf_iff_prefix.mpr ((List.isPrefixOf_iff_prefix.mp leads).trans (List.prefix_append front back)))
    rw [if_neg alone, if_neg other]

theorem fixed_cropped (text : String) : (fixed text).Cropped := by
  intro c front back found taken within
  obtain rfl := Except.ok.inj taken
  exact congrArg Except.ok (fixed_length_cropped text (c :: front) back within)

theorem longer_least (first second : Option Nat) (length : Nat) (known : length ∈ first ∨ length ∈ second) :
    ∃ more ∈ longer first second, length ≤ more := by
  cases first with
  | none => exact ⟨length, known.resolve_left nofun, Nat.le_refl _⟩
  | some left =>
    cases second with
    | none => exact ⟨length, known.resolve_right nofun, Nat.le_refl _⟩
    | some right =>
      refine ⟨max left right, rfl, ?_⟩
      rcases known with same | same
      · cases same
        exact Nat.le_max_left length right
      · cases same
        exact Nat.le_max_right left length

theorem longest_option_least (options : List String) (input : List Char) (best : Option Nat) (length : Nat)
    (known : length ∈ best) :
    ∃ more ∈ options.foldl (fun best option => longer best (fixedLength option input)) best, length ≤ more := by
  induction options generalizing best length with
  | nil => exact ⟨length, known, Nat.le_refl _⟩
  | cons option rest ih =>
    obtain ⟨more, next, larger⟩ := longer_least best (fixedLength option input) length (.inl known)
    obtain ⟨most, last, largest⟩ := ih _ more next
    exact ⟨most, last, Nat.le_trans larger largest⟩

theorem one_of_cropped (options : List String) : (oneOf options).Cropped := by
  intro c front back found taken within
  obtain rfl := Except.ok.inj taken
  refine congrArg Except.ok ?_
  generalize (none : Option Nat) = best at within
  clear taken
  induction options generalizing best with
  | nil => rfl
  | cons option rest ih =>
    -- What one of the options takes is no more than what the longest of them takes.
    have same : fixedLength option (c :: front) = fixedLength option (c :: front ++ back) :=
      fixed_length_cropped option (c :: front) back fun length taken => by
        obtain ⟨more, next, larger⟩ := longer_least best _ length (.inr taken)
        obtain ⟨most, last, largest⟩ := longest_option_least rest _ _ more next
        exact Nat.le_trans (Nat.le_trans larger largest) (within most last)
    rw [List.foldl_cons, List.foldl_cons, same]
    exact ih _ within

end Pattern

theorem LexRule.standard_cropped (rule : LexRule) (member : rule ∈ standard) : rule.pattern.Cropped := by
  simp only [standard, List.mem_cons, List.not_mem_nil, or_false] at member
  rcases member with rfl | rfl | rfl | rfl | rfl | rfl | rfl | rfl
  · exact Recognizer.comment_cropped
  · exact Recognizer.number_cropped
  · exact Recognizer.word_cropped
  · exact Recognizer.text_cropped
  · exact Pattern.one_of_cropped _
  · exact Pattern.one_of_cropped _
  · exact Pattern.one_of_cropped _
  · exact Pattern.fixed_cropped _

end Cropped

namespace LexRule

theorem standard_stroke (rule : LexRule) (member : rule ∈ standard) (other : rule.kind ≠ .comment) (rest : List Char)
    (length : Nat) (taken : rule.pattern.recognize ('/' :: rest) = .ok (some length)) : length ≤ 1 := by
  simp only [standard, List.mem_cons, List.not_mem_nil, or_false] at member
  rcases member with rfl | rfl | rfl | rfl | rfl | rfl | rfl | rfl
  · exact absurd rfl other
  · simp [Pattern.recognize, Recognizer.number, Recognizer.digitsLength] at taken
  · simp [Pattern.recognize, Recognizer.word, Recognizer.isWordStart] at taken
  · simp [Pattern.recognize, Recognizer.text, Recognizer.quoteMarks] at taken
  · simp [Pattern.recognize, Pattern.fixedLength, Pattern.longer] at taken
  · simp [Pattern.recognize, Pattern.fixedLength, Pattern.longer] at taken
    omega
  · simp [Pattern.recognize, Pattern.fixedLength, Pattern.longer] at taken
  · simp [Pattern.recognize, Pattern.fixedLength] at taken

variable (text back more : List Char) (rule : LexRule)

theorem chosen_cropped (rules : List LexRule) (cropped : ∀ rule ∈ rules, rule.pattern.Cropped) (c : Char)
    (chosen : Chosen rules (c :: text ++ back) rule (c :: text).length) :
    Chosen rules (c :: text) rule (c :: text).length := by
  refine chosen_same rules _ _ rule _ chosen fun other member => ?_
  cases recognized : other.pattern.recognize (c :: text ++ back) with
  | error cause => exact absurd recognized (chosen.sound other member cause)
  | ok found =>
    refine cropped other member c text back found recognized fun length taken => ?_
    cases taken
    exact chosen.longest other member length recognized

-- A text that is not a comment is what it is wherever a blank follows it.
theorem chosen_apart (stop : Char) (blank : Text.isBlank stop = true) (c : Char) (kept : rule.kind ≠ .comment)
    (chosen : Chosen standard (c :: text) rule (c :: text).length) :
    Chosen standard (c :: text ++ stop :: more) rule (c :: text).length := by
  have member := chosen_member standard _ rule _ chosen
  refine chosen_same standard _ _ rule _ chosen fun other known => ?_
  cases recognized : other.pattern.recognize (c :: text) with
  | error cause => exact absurd recognized (chosen.sound other known cause)
  | ok found =>
    by_cases comments : other.kind = .comment
    · simp only [standard, List.mem_cons, List.not_mem_nil, or_false] at known
      rcases known with rfl | rfl | rfl | rfl | rfl | rfl | rfl | rfl
      · cases found with
        | none => exact Recognizer.comment_none stop _ more blank recognized
        | some length =>
          have least := Recognizer.comment_least _ length recognized
          have most := chosen.longest _ List.mem_cons_self length recognized
          obtain rfl := Recognizer.comment_stroke c text length recognized
          have short := standard_stroke rule member kept text _ chosen.takes
          omega
      all_goals cases comments
    · exact standard_settled_by stop blank other known comments _ more found recognized

end LexRule

namespace Cut

theorem blanks (rules : List LexRule) (gap input rest : List Char) (pieces : List Piece)
    (white : ∀ c ∈ gap, Text.isBlank c = true) (cut : Cut rules input pieces rest) :
    Cut rules (gap ++ input) (gap.map .blank ++ pieces) rest := by
  induction gap with
  | nil => exact cut
  | cons c gap ih =>
    obtain ⟨first, others⟩ := List.forall_mem_cons.mp white
    exact .blank c _ _ _ first (ih others)

-- The texts that a source is cut into are cut in the same way when they are written with gaps between them.
theorem spaced (input rest : List Char) (pieces : List Piece) (cut : Cut LexRule.standard input pieces rest)
    (gaps : Nat → Gap) : ∃ others, others.filterMap Piece.look? = pieces.filterMap Piece.look? ∧
      Cut LexRule.standard (CoopScript.spaced gaps ((pieces.filterMap Piece.look?).map Prod.snd)).toList others [] := by
  induction cut generalizing gaps with
  | here rest => exact ⟨[], rfl, .here []⟩
  | blank c input rest pieces white further ih => exact ih gaps
  | taken rule c text input rest pieces dark chosen further ih =>
    cases trivia : rule.kind.isTrivia with
    | true =>
      have look : (Piece.taken rule (c :: text)).look? = none := if_pos trivia
      rw [List.filterMap_cons_none look]
      exact ih gaps
    | false =>
      have look : (Piece.taken rule (c :: text)).look? = some (rule.kind, String.ofList (c :: text)) :=
        if_neg (Bool.eq_false_iff.mp trivia)
      have kept : rule.kind ≠ .comment := of_decide_eq_false trivia
      have alone := LexRule.chosen_cropped text input rule _ LexRule.standard_cropped c chosen
      rw [List.filterMap_cons_some look]
      obtain ⟨others, same, onward⟩ := ih fun place => gaps (place + 1)
      rw [← same] at onward ⊢
      cases looks : others.filterMap Piece.look? with
      | nil =>
        refine ⟨[.taken rule (c :: text)], List.filterMap_cons_some look, ?_⟩
        have whole := Cut.taken rule c text [] [] [] dark (by rwa [List.append_nil]) (.here [])
        simpa [CoopScript.spaced] using whole
      | cons next more =>
        rw [looks] at onward
        obtain ⟨stop, gap, gapped⟩ := List.exists_cons_of_ne_nil (gaps 0).something
        have white := (gaps 0).blank
        rw [gapped] at white
        have apart := LexRule.chosen_apart text
          (gap ++ (CoopScript.spaced (fun place => gaps (place + 1)) ((next :: more).map Prod.snd)).toList) rule stop
          (white stop List.mem_cons_self) c kept alone
        have whole := Cut.taken rule c text _ _ _ dark apart (blanks _ (stop :: gap) _ _ others white onward)
        refine ⟨.taken rule (c :: text) :: ((stop :: gap).map .blank ++ others), ?_, ?_⟩
        · rw [List.filterMap_cons_some look, List.filterMap_append, looks, List.filterMap_map]
          simp [Function.comp_def, Piece.look?]
        · simpa [CoopScript.spaced, gapped] using whole

end Cut

/-- The texts of the tokens of a source, written with white space between them, are read as the same tokens: no two become
one, none becomes two, and none becomes of another kind. -/
theorem tokens_respaced (source : String) (file twin : Option String) (tokens : List Token)
    (read : tokenize LexRule.standard source file = .ok tokens) (gaps : Nat → Gap) :
    ∃ front mark others, tokens = front ++ [mark] ∧ mark.look = (.finish, "") ∧ (∀ token ∈ front, token.kind ≠ .finish) ∧
      tokenize LexRule.standard (spaced gaps (front.map Token.text)) twin = .ok others ∧
      others.map Token.look = tokens.map Token.look := by
  obtain ⟨pieces, cut, whole⟩ := Token.read_whole source file tokens read
  obtain ⟨front, mark, split, ended, inside⟩ := Token.read_finish source file tokens read
  obtain ⟨same, marks⟩ := List.append_inj' (split.symm.trans whole) rfl
  obtain ⟨more, looks, further⟩ := cut.spaced _ _ _ gaps
  have texts : front.map Token.text = (pieces.filterMap Piece.look?).map Prod.snd := by
    rw [same, ← Piece.looks_tokens file [], List.map_map]
    rfl
  refine ⟨front, mark, _, split, ended, inside, texts ▸ Token.tokenize_cut LexRule.standard twin _ [] more none further .ended, ?_⟩
  rw [whole, List.map_append, List.map_append, Piece.looks_tokens, Piece.looks_tokens, looks]
  rfl

-- Tokens with nothing but a comment between them, written with a tab and a newline after each.
theorem tokens_respaced_tight : ∃ tokens others, ∃ gap : Gap, gap.text = "\t\n" ∧
    tokenize LexRule.standard "a<=1.5//=\n/'q'" none = .ok tokens ∧
    tokenize LexRule.standard (spaced (fun _ => gap) ["a", "<=", "1.5", "/", "'q'"]) none = .ok others ∧
    others.map Token.look = tokens.map Token.look ∧ tokens.map Token.look =
      [(.word, "a"), (.symbol, "<="), (.number, "1.5"), (.symbol, "/"), (.text, "'q'"), (.finish, "")] := by
  have seen : (tokenize LexRule.standard "a<=1.5//=\n/'q'" none).toOption.map (List.map Token.look) = some
      [(.word, "a"), (.symbol, "<="), (.number, "1.5"), (.symbol, "/"), (.text, "'q'"), (.finish, "")] := by decide +kernel
  let gap : Gap := ⟨"\t\n", by decide, List.all_eq_true.mp (by decide)⟩
  cases read : tokenize LexRule.standard "a<=1.5//=\n/'q'" none with
  | error diagnostic =>
    rw [read] at seen
    cases seen
  | ok tokens =>
    rw [read] at seen
    obtain ⟨front, mark, others, rfl, _, _, reread, same⟩ := tokens_respaced _ none none tokens read fun _ => gap
    have looks := Option.some.inj seen
    have texts : front.map Token.text = ["a", "<=", "1.5", "/", "'q'"] := by
      have inner : (front.map Token.look).map Prod.snd = ["a", "<=", "1.5", "/", "'q'"] := by
        simpa using congrArg (fun looks => (List.dropLast looks).map Prod.snd) looks
      rwa [List.map_map] at inner
    exact ⟨_, others, gap, rfl, rfl, texts ▸ reread, same, looks⟩

end CoopScript
