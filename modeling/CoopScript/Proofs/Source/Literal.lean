import CoopScript.Grammar.Expression
import CoopScript.Proofs.Source.Lines

set_option autoImplicit false
namespace CoopScript

namespace Literal

-- A character as it stands between quotes: for itself, or hidden behind a backslash.
inductive Sign where
  | plain (c : Char)
  | hidden (c : Char)

namespace Sign

def written : Sign → List Char
  | plain c => [c]
  | hidden c => ['\x5c', c]

def meant : Sign → Char
  | plain c => c
  | hidden c => unescapeChar c

-- Neither a backslash nor the quote stands for itself.
def Fits (quote : Char) : Sign → Prop
  | plain c => c ≠ '\x5c' ∧ c ≠ quote
  | hidden _ => True

def of (quote c : Char) : Sign := if c = '\x5c' ∨ c = quote then hidden c else plain c

theorem of_fits (quote c : Char) : (of quote c).Fits quote := by
  unfold of
  split
  next => trivial
  next other => exact not_or.mp other

theorem of_written (quote c : Char) : (of quote c).written = if c = '\x5c' ∨ c = quote then ['\x5c', c] else [c] := by
  unfold of
  split <;> rfl

theorem of_meant (quote c : Char) (mark : quote ∈ Recognizer.quoteMarks) : (of quote c).meant = c := by
  unfold of
  split
  next marked =>
    rcases marked with rfl | rfl
    · rfl
    · rcases Recognizer.quote_cases c mark with rfl | rfl | rfl <;> rfl
  next => rfl

end Sign

-- A text between quotes, with a backslash before every backslash and every quote in it.
def enclosed (quote : Char) (text : String) : String :=
  String.ofList (quote :: text.toList.flatMap (fun c => if c = '\x5c' ∨ c = quote then ['\x5c', c] else [c]) ++ [quote])

theorem enclosed_signs (quote : Char) (text : String) : (enclosed quote text).toList =
    quote :: (text.toList.map (Sign.of quote)).flatMap Sign.written ++ [quote] := by
  rw [enclosed, String.toList_ofList, List.flatMap_map]
  simp only [Sign.of_written]

theorem between_quotes (quote : Char) (single : quote.utf8Size = 1) (body : List Char) :
    between (quote :: body ++ [quote]) = body := by
  simp [between, single]

theorem unescape_signs (quote : Char) (signs : List Sign) (fits : ∀ sign ∈ signs, sign.Fits quote) :
    unescapeAll (signs.flatMap Sign.written) = signs.map Sign.meant := by
  induction signs with
  | nil => rfl
  | cons sign rest ih =>
    obtain ⟨here, later⟩ := List.forall_mem_cons.mp fits
    rw [List.flatMap_cons, List.map_cons, ← ih later]
    cases sign with
    | hidden c => rfl
    | plain c =>
      obtain ⟨plain, -⟩ := here
      exact unescapeAll.eq_4 c _ (fun same => absurd same plain) fun _ _ same => absurd same plain

theorem unescape_written (quote : Char) (single : quote.utf8Size = 1) (signs : List Sign)
    (fits : ∀ sign ∈ signs, sign.Fits quote) (raw : String)
    (written : raw.toList = quote :: signs.flatMap Sign.written ++ [quote]) :
    between raw.toList = signs.flatMap Sign.written ∧ unescape raw = String.ofList (signs.map Sign.meant) := by
  rw [unescape, written, between_quotes quote single, unescape_signs quote signs fits]
  exact ⟨rfl, rfl⟩

theorem mark_single (quote : Char) (mark : quote ∈ Recognizer.quoteMarks) : quote.utf8Size = 1 := by
  rcases Recognizer.quote_cases quote mark with rfl | rfl | rfl <;> rfl

theorem signs_fit (quote : Char) (text : String) : ∀ sign ∈ text.toList.map (Sign.of quote), sign.Fits quote := by
  intro sign listed
  obtain ⟨c, -, rfl⟩ := List.mem_map.mp listed
  exact Sign.of_fits quote c

theorem unescape_enclosed (quote : Char) (mark : quote ∈ Recognizer.quoteMarks) (text : String) :
    unescape (enclosed quote text) = text := by
  have same : (text.toList.map (Sign.of quote)).map Sign.meant = text.toList := by
    rw [List.map_map]
    exact (List.map_congr_left fun c _ => Sign.of_meant quote c mark).trans (List.map_id _)
  obtain ⟨_, read⟩ := unescape_written quote (mark_single quote mark) _ (signs_fit quote text) _ (enclosed_signs quote text)
  rw [read, same, String.ofList_toList]

end Literal

namespace Recognizer

open Literal (Sign)

theorem text_length_signs (quote : Char) (visible : quote ≠ '\x5c') (signs : List Sign)
    (fits : ∀ sign ∈ signs, sign.Fits quote) (more : List Char) :
    textLength quote (signs.flatMap Sign.written ++ quote :: more) = some ((signs.flatMap Sign.written).length + 1) := by
  induction signs with
  | nil =>
    rw [List.flatMap_nil, List.nil_append, text_length_plain quote quote more visible, if_pos rfl]
    rfl
  | cons sign rest ih =>
    obtain ⟨here, later⟩ := List.forall_mem_cons.mp fits
    cases sign with
    | plain c =>
      obtain ⟨plain, other⟩ := here
      simp [Sign.written, text_length_plain quote c _ plain, other, ih later]
    | hidden c => simp [Sign.written, textLength, ih later]

theorem signs_text_length (quote : Char) (input : List Char) (length : Nat)
    (closed : textLength quote input = some length) : ∃ (signs : List Sign) (more : List Char),
      (∀ sign ∈ signs, sign.Fits quote) ∧ input = signs.flatMap Sign.written ++ quote :: more ∧
        length = (signs.flatMap Sign.written).length + 1 := by
  fun_induction textLength quote input generalizing length with
  | case1 | case2 => cases closed
  | case3 hidden rest ih =>
    obtain ⟨shorter, same, rfl⟩ := Option.map_eq_some_iff.mp closed
    obtain ⟨signs, more, fits, rfl, rfl⟩ := ih shorter same
    exact ⟨.hidden hidden :: signs, more, List.forall_mem_cons.mpr ⟨trivial, fits⟩, rfl, rfl⟩
  | case4 rest last hidden =>
    cases closed
    exact ⟨[], rest, List.forall_mem_nil _, rfl, rfl⟩
  | case5 c rest last hidden other ih =>
    obtain ⟨shorter, same, rfl⟩ := Option.map_eq_some_iff.mp closed
    obtain ⟨signs, more, fits, rfl, rfl⟩ := ih shorter same
    -- A backslash here would have hidden the character behind it, and there is one.
    have plain : c ≠ '\x5c' := fun escapes => by
      cases signs with
      | nil => exact hidden quote more escapes rfl
      | cons sign others => cases sign <;> exact hidden _ _ escapes rfl
    exact ⟨.plain c :: signs, more, List.forall_mem_cons.mpr ⟨⟨plain, other⟩, fits⟩, rfl, rfl⟩

theorem text_signs (text back : List Char) (taken : Recognizer.text (text ++ back) = .ok (some text.length)) :
    ∃ quote ∈ quoteMarks, ∃ signs : List Sign, (∀ sign ∈ signs, sign.Fits quote) ∧
      text = quote :: signs.flatMap Sign.written ++ [quote] := by
  cases whole : text ++ back with
  | nil =>
    rw [whole] at taken
    cases taken
  | cons quote rest =>
    rw [whole, Recognizer.text] at taken
    by_cases mark : quote ∈ quoteMarks
    · rw [if_pos mark] at taken
      cases closed : textLength quote rest with
      | none =>
        rw [closed] at taken
        cases taken
      | some length =>
        rw [closed] at taken
        obtain ⟨signs, more, fits, rfl, rfl⟩ := signs_text_length quote rest length closed
        have size : 1 + ((signs.flatMap Sign.written).length + 1) = text.length := Option.some.inj (Except.ok.inj taken)
        have split : text ++ back = quote :: signs.flatMap Sign.written ++ [quote] ++ more := by
          rw [whole, List.append_assoc]
          rfl
        refine ⟨quote, mark, signs, fits, (List.append_inj split ?_).1⟩
        simp only [List.length_append, List.length_cons, List.length_nil]
        omega
    · rw [if_neg mark] at taken
      cases taken

end Recognizer

namespace LexRule

theorem standard_text (rule : LexRule) (member : rule ∈ standard) (texts : rule.kind = .text) :
    rule.pattern.recognize = Recognizer.text := by
  simp only [standard, List.mem_cons, List.not_mem_nil, or_false] at member
  rcases member with rfl | rfl | rfl | rfl | rfl | rfl | rfl | rfl <;> cases texts
  rfl

section Quote
variable (quote : Char) (mark : quote ∈ Recognizer.quoteMarks)
include mark

theorem standard_quote (rule : LexRule) (member : rule ∈ standard) (other : rule.kind ≠ .text) (rest : List Char) :
    rule.pattern.recognize (quote :: rest) = .ok none := by
  have quotes := Recognizer.quote_cases quote mark
  simp only [standard, List.mem_cons, List.not_mem_nil, or_false] at member
  rcases member with rfl | rfl | rfl | rfl | rfl | rfl | rfl | rfl
  · rcases quotes with rfl | rfl | rfl <;> rfl
  · rcases quotes with rfl | rfl | rfl <;> rfl
  · rcases quotes with rfl | rfl | rfl <;> rfl
  · exact absurd rfl other
  all_goals
    rcases quotes with rfl | rfl | rfl <;> simp [Pattern.recognize, Pattern.fixedLength, Pattern.longer]

theorem chosen_enclosed (text : String) (more : List Char) :
    Chosen standard ((Literal.enclosed quote text).toList ++ more) ⟨"string", .text, .custom Recognizer.text⟩
      (Literal.enclosed quote text).toList.length := by
  have visible : quote ≠ '\x5c' := by
    rcases Recognizer.quote_cases quote mark with rfl | rfl | rfl <;> decide
  have closed := Recognizer.text_length_signs quote visible _ (Literal.signs_fit quote text) more
  have taken : ∀ rule ∈ standard, rule.pattern.recognize ((Literal.enclosed quote text).toList ++ more) =
      .ok (if rule.kind = .text then some (Literal.enclosed quote text).toList.length else none) := by
    intro rule member
    rw [Literal.enclosed_signs]
    split
    next texts =>
      rw [standard_text rule member texts]
      simp [Recognizer.text, mark, closed, Nat.add_comm]
    next other => exact standard_quote quote mark rule member other _
  refine ⟨fun rule member cause fault => ?_, taken _ (by simp [standard]), ?_, fun rule member length takes => ?_,
    standard.take 3, standard.drop 4, rfl, fun rule earlier takes => ?_⟩
  · cases (taken rule member).symm.trans fault
  · simp [Literal.enclosed_signs]
  · have same := (taken rule member).symm.trans takes
    split at same <;> cases same
    exact Nat.le_refl _
  · have same := (taken rule (List.mem_of_mem_take earlier)).symm.trans takes
    simp only [standard, List.take_succ_cons, List.take_zero, List.mem_cons, List.not_mem_nil, or_false] at earlier
    rcases earlier with rfl | rfl | rfl <;> cases same

end Quote

end LexRule

/-- A text between quotes is read as one token, whatever follows, and the token as that text. Between the quotes of every
text token stands nothing but characters for themselves and pairs that each mean one character; no quote is among the
first, and the pairs are read to the end. -/
theorem texts_round_trip :
    (∀ quote ∈ Recognizer.quoteMarks, ∀ (text : String) (place : Position) (more : List Char),
      Token.readFrom LexRule.standard 0 place ((Literal.enclosed quote text).toList ++ more) =
        (Token.readFrom LexRule.standard 0 (place.afterAll (Literal.enclosed quote text).toList) more).map
          (⟨.text, Literal.enclosed quote text, place⟩ :: ·) ∧
      ∀ cursor : Cursor, cursor.current = ⟨.text, Literal.enclosed quote text, place⟩ →
        Grammar.starting? cursor ExpressionForm.standard = some (Precedence.postfixed, ExpressionForm.readText) ∧
        ∀ reader precedence, ExpressionForm.readText reader precedence cursor = .ok (.text text) cursor.advance) ∧
    ∀ source file tokens, tokenize LexRule.standard source file = .ok tokens → ∀ token ∈ tokens, token.kind = .text →
      ∃ quote ∈ Recognizer.quoteMarks, ∃ signs : List Literal.Sign, (∀ sign ∈ signs, sign.Fits quote) ∧
        token.text.toList = quote :: signs.flatMap Literal.Sign.written ++ [quote] ∧
        Literal.between token.text.toList = signs.flatMap Literal.Sign.written ∧
        Literal.unescape token.text = String.ofList (signs.map Literal.Sign.meant) := by
  refine ⟨fun quote mark text place more => ⟨?_, fun cursor shown => ⟨?_, fun reader precedence => ?_⟩⟩, ?_⟩
  · have chosen := LexRule.chosen_enclosed quote mark text more
    obtain ⟨body, shape⟩ : ∃ body, (Literal.enclosed quote text).toList = quote :: body :=
      ⟨_, Literal.enclosed_signs quote text⟩
    rw [shape] at chosen ⊢
    rw [Token.read_taken _ _ quote body more place (Recognizer.quote_dark quote mark) chosen, ← shape]
    simp [Piece.token?, TokenKind.isTrivia]
  · have applies : ExpressionForm.text.applies cursor = true := by
      show cursor.isKind .text = true
      rw [Cursor.isKind, shown]
      rfl
    exact if_pos applies
  · have read : ExpressionForm.readText reader precedence cursor =
        .ok (.text (Literal.unescape cursor.current.text)) cursor.advance := rfl
    rw [read, shown, Literal.unescape_enclosed quote mark text]
  · intro source file tokens read token member texts
    obtain ⟨pieces, cut, rfl⟩ := Token.read_whole source file tokens read
    rcases List.mem_append.mp member with inside | last
    · obtain ⟨_, back, rule, _, _, chosen, kind⟩ := Token.tokens_stand LexRule.standard file _ _ pieces cut [] token inside
      obtain ⟨quote, mark, signs, fits, written⟩ := Recognizer.text_signs _ back
        (LexRule.standard_text rule (LexRule.chosen_member _ _ rule _ chosen) (kind.symm.trans texts) ▸ chosen.takes)
      exact ⟨quote, mark, signs, fits, written,
        Literal.unescape_written quote (Literal.mark_single quote mark) signs fits token.text written⟩
    · cases List.mem_singleton.mp last
      cases texts

-- A text with its own quote and a newline in it, and a symbol right behind it.
theorem texts_round_trip_quoted : ∃ tokens, tokenize LexRule.standard "'it\\'s\n'+" none = .ok tokens ∧
    tokens = [⟨.text, "'it\\'s\n'", ⟨1, 1, 0, none⟩⟩, ⟨.symbol, "+", ⟨2, 2, 8, none⟩⟩, ⟨.finish, "", ⟨2, 3, 9, none⟩⟩] ∧
    ExpressionForm.readText Reader.stalled 0 ⟨⟨.text, "'it\\'s\n'", ⟨1, 1, 0, none⟩⟩, []⟩ =
      .ok (.text "it's\n") ⟨⟨.text, "'it\\'s\n'", ⟨1, 1, 0, none⟩⟩, []⟩ ∧
    ∃ quote ∈ Recognizer.quoteMarks, ∃ signs : List Literal.Sign, (∀ sign ∈ signs, sign.Fits quote) ∧
      Literal.between "'it\\'s\n'".toList = signs.flatMap Literal.Sign.written ∧
      Literal.unescape "'it\\'s\n'" = String.ofList (signs.map Literal.Sign.meant) := by
  obtain ⟨encloses, decodes⟩ := texts_round_trip
  obtain ⟨read, starts⟩ := encloses '\'' (by decide) "it's\n" (.start none) ['+']
  have written : Literal.enclosed '\'' "it's\n" = "'it\\'s\n'" := by decide +kernel
  rw [written] at read starts
  have whole : tokenize LexRule.standard "'it\\'s\n'+" none = .ok [⟨.text, "'it\\'s\n'", ⟨1, 1, 0, none⟩⟩,
      ⟨.symbol, "+", ⟨2, 2, 8, none⟩⟩, ⟨.finish, "", ⟨2, 3, 9, none⟩⟩] := by
    refine Eq.trans (congrArg _ ?_) (read.trans ?_)
    · decide +kernel
    · rfl
  obtain ⟨quote, mark, signs, fits, _, between, meant⟩ := decodes _ none _ whole _ List.mem_cons_self rfl
  exact ⟨_, whole, rfl, (starts _ rfl).2 _ _, quote, mark, signs, fits, between, meant⟩

end CoopScript
