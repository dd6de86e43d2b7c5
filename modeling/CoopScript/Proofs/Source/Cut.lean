import CoopScript.Source.Lexer
import Mathlib.Algebra.GroupWithZero.Nat

/-!
How a source is cut into white space and matches: which rule of a table takes the front of what is left and how much of it,
where the tokens of the matches stand, and where a source that cannot be cut to its end is at fault.
-/
set_option autoImplicit false
namespace CoopScript

-- What is taken is there to be taken. Lengths count characters, so a match never ends inside of one.
def Pattern.Inside (pattern : Pattern) : Prop :=
  ∀ input length, pattern.recognize input = .ok (some length) → length ≤ input.length

namespace LexRule

-- No rule faults on a text, and this one takes something: as much as any rule takes, and it is the first that takes
-- so much.
structure Chosen (rules : List LexRule) (input : List Char) (rule : LexRule) (length : Nat) : Prop where
  sound : ∀ other ∈ rules, ∀ cause, other.pattern.recognize input ≠ .error cause
  takes : rule.pattern.recognize input = .ok (some length)
  something : length ≠ 0
  longest : ∀ other ∈ rules, ∀ more, other.pattern.recognize input = .ok (some more) → more ≤ length
  earliest : ∃ before after, rules = before ++ rule :: after ∧
    ∀ other ∈ before, other.pattern.recognize input ≠ .ok (some length)

-- The first rule that faults on a text does so for this cause.
def Refused (rules : List LexRule) (input : List Char) (cause : Cause) : Prop :=
  ∃ before rule after, rules = before ++ rule :: after ∧ rule.pattern.recognize input = .error cause ∧
    ∀ other ∈ before, ∀ own, other.pattern.recognize input ≠ .error own

-- No rule takes anything from the front of a text, and none faults.
def Untouched (rules : List LexRule) (input : List Char) : Prop :=
  ∀ rule ∈ rules, rule.pattern.recognize input = .ok none ∨ rule.pattern.recognize input = .ok (some 0)

variable (rules : List LexRule) (input : List Char)

theorem refused_unique (cause own : Cause) (refused : Refused rules input cause) (rival : Refused rules input own) :
    cause = own := by
  obtain ⟨before, rule, after, split, fault, sound⟩ := refused
  obtain ⟨front, other, back, resplit, otherFault, otherSound⟩ := rival
  rcases List.append_eq_append_iff.mp (split.symm.trans resplit) with ⟨between, rfl, same⟩ | ⟨between, rfl, same⟩
  · cases between with
    | nil =>
      obtain rfl := (List.cons.inj same).1
      exact Except.error.inj (fault.symm.trans otherFault)
    | cons next rest =>
      obtain rfl := (List.cons.inj same).1
      exact absurd fault (otherSound rule (List.mem_append_right _ List.mem_cons_self) cause)
  · cases between with
    | nil =>
      obtain rfl := (List.cons.inj same).1
      exact Except.error.inj (fault.symm.trans otherFault)
    | cons next rest =>
      obtain rfl := (List.cons.inj same).1
      exact absurd otherFault (sound other (List.mem_append_right _ List.mem_cons_self) own)

theorem chosen_member (rule : LexRule) (length : Nat) (chosen : Chosen rules input rule length) : rule ∈ rules := by
  obtain ⟨before, after, split, _⟩ := chosen.earliest
  exact split ▸ List.mem_append_right _ List.mem_cons_self

theorem refused_member (cause : Cause) (refused : Refused rules input cause) :
    ∃ rule ∈ rules, rule.pattern.recognize input = .error cause := by
  obtain ⟨before, rule, after, rfl, fault, _⟩ := refused
  exact ⟨rule, List.mem_append_right _ List.mem_cons_self, fault⟩

theorem chosen_unique (rule other : LexRule) (length more : Nat) (chosen : Chosen rules input rule length)
    (rival : Chosen rules input other more) : rule = other ∧ length = more := by
  obtain ⟨before, after, split, early⟩ := chosen.earliest
  obtain ⟨front, back, resplit, first⟩ := rival.earliest
  have member := chosen_member rules input rule length chosen
  have otherMember := chosen_member rules input other more rival
  obtain rfl : length = more :=
    Nat.le_antisymm (rival.longest rule member length chosen.takes) (chosen.longest other otherMember more rival.takes)
  refine ⟨?_, rfl⟩
  -- If one of them stood before the other, that one would not be the first.
  rcases List.append_eq_append_iff.mp (split.symm.trans resplit) with ⟨between, rfl, same⟩ | ⟨between, rfl, same⟩
  · cases between with
    | nil => exact (List.cons.inj same).1
    | cons next rest =>
      obtain rfl := (List.cons.inj same).1
      exact absurd chosen.takes (first rule (List.mem_append_right _ List.mem_cons_self))
  · cases between with
    | nil => exact (List.cons.inj same).1.symm
    | cons next rest =>
      obtain rfl := (List.cons.inj same).1
      exact absurd rival.takes (early other (List.mem_append_right _ List.mem_cons_self))

end LexRule

namespace Match
variable (input : List Char)

-- What the search has come to once it has asked these rules.
inductive Best (input : List Char) (asked : List LexRule) : Option Match → Prop
  | nothing (untouched : LexRule.Untouched asked input) : Best input asked none
  | found (best : Match) (chosen : LexRule.Chosen asked input best.rule best.length) : Best input asked (some best)

theorem best_idle (asked : List LexRule) (best : Option Match) (rule : LexRule)
    (idle : rule.pattern.recognize input = .ok none ∨ rule.pattern.recognize input = .ok (some 0))
    (known : Best input asked best) : Best input (asked ++ [rule]) best := by
  cases known with
  | nothing untouched =>
    exact .nothing (List.forall_mem_append.mpr ⟨untouched, List.forall_mem_singleton.mpr idle⟩)
  | found best chosen =>
    obtain ⟨before, after, split, early⟩ := chosen.earliest
    refine .found best ⟨?_, chosen.takes, chosen.something, ?_, before, after ++ [rule], by simp [split], early⟩
    · refine List.forall_mem_append.mpr ⟨chosen.sound, List.forall_mem_singleton.mpr fun cause refused => ?_⟩
      rcases idle with same | same <;> cases same.symm.trans refused
    · refine List.forall_mem_append.mpr ⟨chosen.longest, List.forall_mem_singleton.mpr fun more takes => ?_⟩
      rcases idle with same | same <;> cases same.symm.trans takes
      exact Nat.zero_le _

theorem best_next (asked : List LexRule) (best : Option Match) (rule : LexRule) (length : Option Nat)
    (known : Best input asked best) (recognized : rule.pattern.recognize input = .ok length) :
    Best input (asked ++ [rule]) (better best rule length) := by
  cases length with
  | none => exact best_idle input asked best rule (.inl recognized) known
  | some length =>
    by_cases nothing : length = 0
    · subst nothing
      have same : better best rule (some 0) = best := by cases best <;> simp [better]
      rw [same]
      exact best_idle input asked best rule (.inr recognized) known
    have sound (others : ∀ other ∈ asked, ∀ cause, other.pattern.recognize input ≠ .error cause) :
        ∀ other ∈ asked ++ [rule], ∀ cause, other.pattern.recognize input ≠ .error cause := by
      refine List.forall_mem_append.mpr ⟨others, List.forall_mem_singleton.mpr fun cause refused => ?_⟩
      cases recognized.symm.trans refused
    have own (more : Nat) (takes : rule.pattern.recognize input = .ok (some more)) : more = length := by
      cases recognized.symm.trans takes
      rfl
    cases known with
    | nothing untouched =>
      have few : ∀ other ∈ asked, ∀ more, other.pattern.recognize input = .ok (some more) → more = 0 := by
        intro other member more takes
        rcases untouched other member with same | same <;> cases same.symm.trans takes
        rfl
      have only : better none rule (some length) = some ⟨rule, length⟩ := by simp [better, nothing]
      rw [only]
      refine .found _ ⟨sound fun other member cause refused => ?_, recognized, nothing, ?_, asked, [], rfl, ?_⟩
      · rcases untouched other member with same | same <;> cases same.symm.trans refused
      · refine List.forall_mem_append.mpr ⟨fun other member more takes => ?_, List.forall_mem_singleton.mpr fun more takes =>
          Nat.le_of_eq (own more takes)⟩
        exact few other member more takes ▸ Nat.zero_le _
      · exact fun other member takes => nothing (few other member length takes)
    | found best chosen =>
      obtain ⟨before, after, split, early⟩ := chosen.earliest
      by_cases longer : best.length < length
      · have now : better (some best) rule (some length) = some ⟨rule, length⟩ := by simp [better, longer]
        rw [now]
        refine .found _ ⟨sound chosen.sound, recognized, nothing, ?_, asked, [], rfl, fun other member takes => ?_⟩
        · refine List.forall_mem_append.mpr ⟨fun other member more takes => ?_, List.forall_mem_singleton.mpr fun more takes =>
            Nat.le_of_eq (own more takes)⟩
          exact Nat.le_of_lt (Nat.lt_of_le_of_lt (chosen.longest other member more takes) longer)
        · exact absurd (chosen.longest other member length takes) (Nat.not_le.mpr longer)
      · have still : better (some best) rule (some length) = some best := by simp [better, longer]
        rw [still]
        refine .found _ ⟨sound chosen.sound, chosen.takes, chosen.something, ?_, before, after ++ [rule], by simp [split],
          early⟩
        refine List.forall_mem_append.mpr ⟨chosen.longest, List.forall_mem_singleton.mpr fun more takes => ?_⟩
        exact own more takes ▸ Nat.not_lt.mp longer

theorem longest_best (asked rules : List LexRule) (best result : Option Match) (known : Best input asked best)
    (ended : longest input best rules = .ok result) : Best input (asked ++ rules) result := by
  induction rules generalizing asked best with
  | nil =>
    cases ended
    rwa [List.append_nil]
  | cons rule rest ih =>
    unfold longest at ended
    cases recognized : rule.pattern.recognize input with
    | error cause =>
      rw [recognized] at ended
      cases ended
    | ok length =>
      rw [recognized] at ended
      have further := ih (asked ++ [rule]) _ (best_next input asked best rule length known recognized) ended
      rwa [List.append_assoc, List.singleton_append] at further

theorem longest_refused (rules : List LexRule) (best : Option Match) (cause : Cause)
    (ended : longest input best rules = .error cause) : LexRule.Refused rules input cause := by
  induction rules generalizing best with
  | nil => cases ended
  | cons rule rest ih =>
    unfold longest at ended
    cases recognized : rule.pattern.recognize input with
    | error own =>
      rw [recognized] at ended
      cases ended
      exact ⟨[], rule, rest, rfl, recognized, List.forall_mem_nil _⟩
    | ok length =>
      rw [recognized] at ended
      obtain ⟨before, other, after, rfl, refused, sound⟩ := ih _ ended
      refine ⟨rule :: before, other, after, rfl, refused, List.forall_mem_cons.mpr ⟨fun own same => ?_, sound⟩⟩
      cases recognized.symm.trans same

theorem longest_cases (rules : List LexRule) :
    (∃ cause, longest input none rules = .error cause ∧ LexRule.Refused rules input cause) ∨
      (longest input none rules = .ok none ∧ LexRule.Untouched rules input) ∨
      ∃ found, longest input none rules = .ok (some found) ∧ LexRule.Chosen rules input found.rule found.length := by
  cases ended : longest input none rules with
  | error cause => exact .inl ⟨cause, rfl, longest_refused input rules none cause ended⟩
  | ok result =>
    cases longest_best input [] rules none result (.nothing (List.forall_mem_nil _)) ended with
    | nothing untouched => exact .inr (.inl ⟨rfl, untouched⟩)
    | found best chosen => exact .inr (.inr ⟨best, rfl, chosen⟩)

section Known
variable (rules : List LexRule)

theorem longest_chosen (rule : LexRule) (length : Nat) (chosen : LexRule.Chosen rules input rule length) :
    longest input none rules = .ok (some ⟨rule, length⟩) := by
  rcases longest_cases input rules with ⟨cause, _, refused⟩ | ⟨_, untouched⟩ | ⟨found, ended, other⟩
  · obtain ⟨other, member, fault⟩ := LexRule.refused_member rules input cause refused
    exact absurd fault (chosen.sound other member cause)
  · rcases untouched rule (LexRule.chosen_member rules input rule length chosen) with same | same
    · cases same.symm.trans chosen.takes
    · cases same.symm.trans chosen.takes
      exact absurd rfl chosen.something
  · obtain ⟨rfl, rfl⟩ := LexRule.chosen_unique rules input _ _ _ _ chosen other
    exact ended

theorem longest_fails (cause : Cause) (refused : LexRule.Refused rules input cause) :
    longest input none rules = .error cause := by
  obtain ⟨rule, member, fault⟩ := LexRule.refused_member rules input cause refused
  rcases longest_cases input rules with ⟨own, ended, other⟩ | ⟨_, untouched⟩ | ⟨found, _, chosen⟩
  · rw [ended, LexRule.refused_unique rules input own cause other refused]
  · rcases untouched rule member with same | same <;> cases same.symm.trans fault
  · exact absurd fault (chosen.sound rule member cause)

theorem longest_nothing (untouched : LexRule.Untouched rules input) : longest input none rules = .ok none := by
  rcases longest_cases input rules with ⟨cause, _, refused⟩ | ⟨ended, _⟩ | ⟨found, _, chosen⟩
  · obtain ⟨rule, member, fault⟩ := LexRule.refused_member rules input cause refused
    rcases untouched rule member with same | same <;> cases same.symm.trans fault
  · exact ended
  · rcases untouched found.rule (LexRule.chosen_member rules input _ _ chosen) with same | same
    · cases same.symm.trans chosen.takes
    · exact absurd (Option.some.inj (Except.ok.inj (chosen.takes.symm.trans same))) chosen.something

end Known

end Match

namespace Recognizer

theorem comment_length_inside (input : List Char) (length : Nat) (closed : commentLength input = some length) :
    length ≤ input.length := by
  fun_induction commentLength input generalizing length with
  | case1 => cases closed
  | case2 =>
    cases closed
    simp
  | case3 c rest open_ ih =>
    obtain ⟨shorter, same, rfl⟩ := Option.map_eq_some_iff.mp closed
    exact Nat.succ_le_succ (ih shorter same)

theorem text_length_inside (quote : Char) (input : List Char) (length : Nat) (closed : textLength quote input = some length) :
    length ≤ input.length := by
  fun_induction textLength quote input generalizing length with
  | case1 | case2 => cases closed
  | case3 hidden rest ih =>
    obtain ⟨shorter, same, rfl⟩ := Option.map_eq_some_iff.mp closed
    exact Nat.add_le_add_right (ih shorter same) 2
  | case4 rest ended open_ =>
    cases closed
    simp
  | case5 c rest ended open_ other ih =>
    obtain ⟨shorter, same, rfl⟩ := Option.map_eq_some_iff.mp closed
    exact Nat.succ_le_succ (ih shorter same)

theorem comment_inside : (Pattern.custom comment).Inside := by
  intro input length taken
  simp only [Pattern.recognize] at taken
  unfold comment at taken
  split at taken
  next rest =>
    cases taken
    have within := (List.takeWhile_prefix (· ≠ '\n') (l := rest)).length_le
    simp only [List.length_cons]
    omega
  next rest =>
    split at taken
    next closing closed =>
      cases taken
      have within := comment_length_inside rest closing closed
      simp only [List.length_cons]
      omega
    next => cases taken
  next => cases taken

theorem number_inside : (Pattern.custom number).Inside := by
  intro input length taken
  have digits (text : List Char) : digitsLength text ≤ text.length := (List.takeWhile_prefix Char.isDigit).length_le
  have whole := digits input
  simp only [Pattern.recognize, number] at taken
  split at taken
  next => cases taken
  split at taken
  next rest pointed =>
    have left := congrArg List.length pointed
    have fraction := digits rest
    simp only [List.length_drop, List.length_cons] at left
    cases taken
    split
    · exact whole
    · omega
  next =>
    cases taken
    exact whole

theorem word_inside : (Pattern.custom word).Inside := by
  intro input length taken
  simp only [Pattern.recognize] at taken
  unfold word at taken
  split at taken
  next => cases taken
  next first rest =>
    split at taken
    next =>
      cases taken
      have within := (List.takeWhile_prefix isWordPart (l := rest)).length_le
      simp only [List.length_cons]
      omega
    next => cases taken

theorem text_inside : (Pattern.custom text).Inside := by
  intro input length taken
  simp only [Pattern.recognize] at taken
  unfold text at taken
  split at taken
  next => cases taken
  next quote rest =>
    split at taken
    next =>
      split at taken
      next closing closed =>
        cases taken
        have within := text_length_inside quote rest closing closed
        simp only [List.length_cons]
        omega
      next => cases taken
    next => cases taken

end Recognizer

namespace Pattern

theorem fixed_length_inside (text : String) (input : List Char) (length : Nat) (taken : fixedLength text input = some length) :
    length ≤ input.length := by
  unfold fixedLength at taken
  split at taken
  next leads =>
    cases taken
    exact (List.isPrefixOf_iff_prefix.mp leads).length_le
  next => cases taken

theorem fixed_inside (text : String) : (fixed text).Inside := by
  intro input length taken
  exact fixed_length_inside text input length (Except.ok.inj taken)

theorem longer_inside (first second : Option Nat) (bound : Nat) (short : ∀ length ∈ first, length ≤ bound)
    (other : ∀ length ∈ second, length ≤ bound) : ∀ length ∈ longer first second, length ≤ bound := by
  cases first with
  | none => exact other
  | some left =>
    cases second with
    | none => exact short
    | some right =>
      rintro length same
      cases same
      exact Nat.max_le.mpr ⟨short left rfl, other right rfl⟩

theorem one_of_inside (options : List String) : (oneOf options).Inside := by
  intro input length taken
  have all : ∀ best : Option Nat, (∀ known ∈ best, known ≤ input.length) → ∀ known ∈
      options.foldl (fun best option => longer best (fixedLength option input)) best, known ≤ input.length := by
    clear taken
    induction options with
    | nil => exact fun _ inside => inside
    | cons option rest ih =>
      exact fun best inside => ih _ (longer_inside best _ _ inside fun length => fixed_length_inside option input length)
  exact all none nofun length (Except.ok.inj taken)

end Pattern

theorem LexRule.standard_within (rule : LexRule) (member : rule ∈ standard) : rule.pattern.Inside := by
  simp only [standard, List.mem_cons, List.not_mem_nil, or_false] at member
  rcases member with rfl | rfl | rfl | rfl | rfl | rfl | rfl | rfl
  · exact Recognizer.comment_inside
  · exact Recognizer.number_inside
  · exact Recognizer.word_inside
  · exact Recognizer.text_inside
  · exact Pattern.one_of_inside _
  · exact Pattern.one_of_inside _
  · exact Pattern.one_of_inside _
  · exact Pattern.fixed_inside _

namespace Position

-- The place behind a text: its lines are counted by its newlines, the column by the characters after the last of
-- them, and the offset by the bytes of all its characters.
def behind (file : Option String) (text : List Char) : Position :=
  ⟨1 + text.count '\n', 1 + (text.reverse.takeWhile (· ≠ '\n')).length, (text.map Char.utf8Size).sum, file⟩

theorem behind_one (file : Option String) (text : List Char) (c : Char) :
    behind file (text ++ [c]) = (behind file text).after c := by
  unfold behind after
  by_cases newline : c = '\n'
  · simp [newline, Nat.add_assoc]
  · simp [newline, Nat.add_comm]

theorem behind_more (file : Option String) (text more : List Char) :
    behind file (text ++ more) = (behind file text).afterAll more := by
  induction more generalizing text with
  | nil => rw [List.append_nil]; rfl
  | cons c rest ih =>
    rw [List.append_cons, ih, behind_one]
    rfl

theorem offset_more (file : Option String) (text more : List Char) :
    (behind file text).offset ≤ (behind file (text ++ more)).offset := by
  simp [behind]

theorem offset_next (file : Option String) (text more : List Char) (c : Char) :
    (behind file text).offset < (behind file (text ++ c :: more)).offset := by
  have size := c.utf8Size_pos
  simp only [behind, List.map_append, List.map_cons, List.sum_append_nat, List.sum_cons]
  omega

end Position

-- A stretch of a source: a blank, or what a rule takes.
inductive Piece where
  | blank (c : Char)
  | taken (rule : LexRule) (text : List Char)

namespace Piece

def text : Piece → List Char
  | blank c => [c]
  | taken _ text => text

def texts (pieces : List Piece) : List Char := pieces.flatMap text

def token? (place : Position) : Piece → Option Token
  | blank _ => none
  | taken rule text => if rule.kind.isTrivia then none else some ⟨rule.kind, String.ofList text, place⟩

-- The tokens of pieces that stand behind a text.
def tokens (file : Option String) (before : List Char) : List Piece → List Token
  | [] => []
  | piece :: rest => (piece.token? (.behind file before)).toList ++ tokens file (before ++ piece.text) rest

theorem tokens_taken (file : Option String) (before text : List Char) (rule : LexRule) (rest : List Piece) :
    tokens file before (.taken rule text :: rest) =
      if rule.kind.isTrivia then tokens file (before ++ text) rest
      else ⟨rule.kind, String.ofList text, .behind file before⟩ :: tokens file (before ++ text) rest := by
  rw [tokens, token?, Piece.text]
  split <;> rfl

theorem texts_cons (piece : Piece) (rest : List Piece) : texts (piece :: rest) = piece.text ++ texts rest := rfl

end Piece

/-- A text begins with these pieces: each rule that takes one is the one that is chosen, with all that is left of the text in
view. -/
inductive Cut (rules : List LexRule) : List Char → List Piece → List Char → Prop
  | here (rest : List Char) : Cut rules rest [] rest
  | blank (c : Char) (input rest : List Char) (pieces : List Piece) (white : Text.isBlank c = true)
      (further : Cut rules input pieces rest) : Cut rules (c :: input) (.blank c :: pieces) rest
  | taken (rule : LexRule) (c : Char) (text input rest : List Char) (pieces : List Piece) (dark : Text.isBlank c = false)
      (chosen : LexRule.Chosen rules (c :: text ++ input) rule (c :: text).length) (further : Cut rules input pieces rest) :
      Cut rules (c :: text ++ input) (.taken rule (c :: text) :: pieces) rest

-- Nothing more can be cut off: the text has ended, or a rule faults, or none takes anything.
inductive Stuck (rules : List LexRule) : List Char → Option Cause → Prop
  | ended : Stuck rules [] none
  | refused (c : Char) (rest : List Char) (cause : Cause) (dark : Text.isBlank c = false)
      (refused : LexRule.Refused rules (c :: rest) cause) : Stuck rules (c :: rest) (some cause)
  | untouched (c : Char) (rest : List Char) (dark : Text.isBlank c = false) (untouched : LexRule.Untouched rules (c :: rest)) :
      Stuck rules (c :: rest) (some (.unexpectedCharacter c))

-- A token stands where it says, and is the match of the rule that is chosen there.
def Token.Stands (rules : List LexRule) (file : Option String) (source : List Char) (token : Token) : Prop :=
  ∃ front back rule, source = front ++ token.text.toList ++ back ∧ token.position = .behind file front ∧
    LexRule.Chosen rules (token.text.toList ++ back) rule token.text.toList.length ∧ token.kind = rule.kind

section Cut
variable (rules : List LexRule)

theorem Cut.whole (input rest : List Char) (pieces : List Piece) (cut : Cut rules input pieces rest) :
    input = Piece.texts pieces ++ rest := by
  induction cut with
  | here => rfl
  | blank c _ _ _ _ _ ih => rw [ih, Piece.texts_cons]; rfl
  | taken rule c text _ _ _ _ _ _ ih => rw [ih, Piece.texts_cons, Piece.text, List.append_assoc]

theorem Cut.joined (input middle rest : List Char) (pieces more : List Piece) (cut : Cut rules input pieces middle)
    (further : Cut rules middle more rest) : Cut rules input (pieces ++ more) rest := by
  induction cut with
  | here => exact further
  | blank c _ _ _ white _ ih => exact .blank c _ _ _ white (ih further)
  | taken rule c text _ _ _ dark chosen _ ih => exact .taken rule c text _ _ _ dark chosen (ih further)

theorem Cut.until_stuck (inside : ∀ rule ∈ rules, rule.pattern.Inside) (input : List Char) :
    ∃ pieces rest fault, Cut rules input pieces rest ∧ Stuck rules rest fault := by
  induction length : input.length using Nat.strongRecOn generalizing input with
  | ind size ih =>
    cases input with
    | nil => exact ⟨[], [], none, .here [], .ended⟩
    | cons c input =>
      cases white : Text.isBlank c with
      | true =>
        obtain ⟨pieces, rest, fault, cut, stuck⟩ := ih input.length (by rw [← length]; exact Nat.lt_succ_self _) input rfl
        exact ⟨_, rest, fault, .blank c _ _ _ white cut, stuck⟩
      | false =>
        rcases Match.longest_cases (c :: input) rules with ⟨cause, _, refused⟩ | ⟨_, untouched⟩ | ⟨⟨rule, taken⟩, _, chosen⟩
        · exact ⟨[], _, _, .here _, .refused c input cause white refused⟩
        · exact ⟨[], _, _, .here _, .untouched c input white untouched⟩
        · have within := inside rule (LexRule.chosen_member _ _ rule _ chosen) _ _ chosen.takes
          obtain ⟨less, rfl⟩ := Nat.exists_eq_succ_of_ne_zero chosen.something
          simp only [List.length_cons, Nat.succ_le_succ_iff] at within
          have whole : c :: input.take less ++ input.drop less = c :: input := by simp
          have size : (c :: input.take less).length = less + 1 := by simp [within]
          obtain ⟨pieces, rest, fault, cut, stuck⟩ := ih (input.drop less).length
            (by rw [← length, List.length_drop, List.length_cons]; omega) _ rfl
          have begun := Cut.taken rule c (input.take less) _ rest pieces white (by rwa [whole, size]) cut
          exact ⟨_, rest, fault, whole ▸ begun, stuck⟩

end Cut

namespace Token
variable (rules : List LexRule) (file : Option String)

theorem read_skipped (text input : List Char) (place : Position) :
    readFrom rules text.length place (text ++ input) = readFrom rules 0 (place.afterAll text) input := by
  induction text generalizing place with
  | nil => cases input <;> rfl
  | cons c rest ih => exact ih (place.after c)

-- Past what the chosen rule takes, the reading goes on with what is left.
theorem read_taken (rule : LexRule) (c : Char) (text input : List Char) (place : Position) (dark : Text.isBlank c = false)
    (chosen : LexRule.Chosen rules (c :: text ++ input) rule (c :: text).length) :
    readFrom rules 0 place (c :: text ++ input) = (readFrom rules 0 (place.afterAll (c :: text)) input).map
      (((Piece.taken rule (c :: text)).token? place).toList ++ ·) := by
  have matched := Match.longest_chosen _ rules rule _ chosen
  have skipped : readFrom rules ((c :: text).length - 1) (place.after c) (text ++ input) =
      readFrom rules 0 (place.afterAll (c :: text)) input := read_skipped rules text input _
  have own : text = (text ++ input).take ((c :: text).length - 1) := by simp
  rw [List.cons_append, readFrom, dark, if_neg Bool.false_ne_true, ← List.cons_append, matched]
  simp only [skipped, ← own, Piece.token?]
  cases readFrom rules 0 (place.afterAll (c :: text)) input <;> cases rule.kind.isTrivia <;> rfl

-- Past the pieces of a text that is cut, the reading goes on with what is left.
theorem read_cut (input rest : List Char) (pieces : List Piece) (cut : Cut rules input pieces rest) (before : List Char) :
    readFrom rules 0 (.behind file before) input =
      (readFrom rules 0 (.behind file (before ++ Piece.texts pieces)) rest).map (Piece.tokens file before pieces ++ ·) := by
  induction cut generalizing before with
  | here rest =>
    rw [show Piece.texts [] = [] from rfl, List.append_nil]
    cases readFrom rules 0 (.behind file before) rest <;> rfl
  | blank c input rest pieces white further ih =>
    rw [Piece.texts_cons, ← List.append_assoc, show Piece.text (.blank c) = [c] from rfl, readFrom, if_pos white,
      ← Position.behind_one, ih]
    rfl
  | taken rule c text input rest pieces dark chosen further ih =>
    rw [read_taken rules rule c text input _ dark chosen, ← Position.behind_more, ih, Piece.texts_cons, Piece.text,
      List.append_assoc]
    cases readFrom rules 0 (.behind file (before ++ (c :: text ++ Piece.texts pieces))) rest with
    | error => rfl
    | ok => exact congrArg Except.ok (List.append_assoc _ _ _).symm

-- Where nothing more can be cut off, the reading ends: with the end mark, or with the fault.
theorem read_stuck (input : List Char) (fault : Option Cause) (place : Position) (stuck : Stuck rules input fault) :
    readFrom rules 0 place input = match fault with
      | none => .ok [⟨.finish, "", place⟩]
      | some cause => .error (.located cause place) := by
  cases stuck with
  | ended => rfl
  | refused c rest cause dark refused =>
    rw [readFrom, dark, if_neg Bool.false_ne_true, Match.longest_fails _ rules cause refused]
  | untouched c rest dark untouched =>
    rw [readFrom, dark, if_neg Bool.false_ne_true, Match.longest_nothing _ rules untouched]

theorem tokenize_cut (source : String) (rest : List Char) (pieces : List Piece) (fault : Option Cause)
    (cut : Cut rules source.toList pieces rest) (stuck : Stuck rules rest fault) :
    tokenize rules source file = match fault with
      | none => .ok (Piece.tokens file [] pieces ++ [⟨.finish, "", .behind file (Piece.texts pieces)⟩])
      | some cause => .error (.located cause (.behind file (Piece.texts pieces))) := by
  have read := read_cut rules file source.toList rest pieces cut []
  rw [List.nil_append, read_stuck rules rest fault _ stuck] at read
  refine Eq.trans read ?_
  cases fault <;> rfl

theorem tokens_increase (input rest : List Char) (pieces : List Piece) (cut : Cut rules input pieces rest)
    (before : List Char) (last : Token) (behind : last.position = .behind file (before ++ Piece.texts pieces)) :
    ((Piece.tokens file before pieces ++ [last]).map fun token => token.position.offset).Pairwise (· < ·) ∧
      ∀ token ∈ Piece.tokens file before pieces ++ [last],
        (Position.behind file before).offset ≤ token.position.offset := by
  induction cut generalizing before with
  | here rest =>
    refine ⟨List.pairwise_singleton _ _, List.forall_mem_singleton.mpr ?_⟩
    rw [behind]
    exact Position.offset_more file before _
  | blank c input rest pieces white further ih =>
    rw [Piece.texts_cons, ← List.append_assoc] at behind
    obtain ⟨increase, above⟩ := ih _ behind
    exact ⟨increase, fun token member => Nat.le_trans (Position.offset_more file before _) (above token member)⟩
  | taken rule c text input rest pieces dark chosen further ih =>
    rw [Piece.texts_cons, ← List.append_assoc] at behind
    obtain ⟨increase, above⟩ := ih _ behind
    have strictly : ∀ token ∈ Piece.tokens file (before ++ c :: text) pieces ++ [last],
        (Position.behind file before).offset < token.position.offset := fun token member =>
      Nat.lt_of_lt_of_le (Position.offset_next file before text c) (above token member)
    rw [Piece.tokens_taken]
    cases rule.kind.isTrivia with
    | true => exact ⟨increase, fun token member => Nat.le_of_lt (strictly token member)⟩
    | false =>
      refine ⟨List.pairwise_cons.mpr ⟨?_, increase⟩, List.forall_mem_cons.mpr ⟨Nat.le_refl _, fun token member =>
        Nat.le_of_lt (strictly token member)⟩⟩
      intro offset listed
      obtain ⟨token, member, rfl⟩ := List.mem_map.mp listed
      exact strictly token member

theorem tokens_stand (input rest : List Char) (pieces : List Piece) (cut : Cut rules input pieces rest)
    (before : List Char) : ∀ token ∈ Piece.tokens file before pieces, token.Stands rules file (before ++ input) := by
  induction cut generalizing before with
  | here => exact List.forall_mem_nil _
  | blank c input rest pieces white further ih =>
    rw [List.append_cons]
    exact ih _
  | taken rule c text input rest pieces dark chosen further ih =>
    have later := ih (before ++ c :: text)
    rw [List.append_assoc] at later
    rw [Piece.tokens_taken]
    cases rule.kind.isTrivia with
    | true => exact later
    | false =>
      refine List.forall_mem_cons.mpr ⟨⟨before, input, rule, ?_, rfl, ?_, rfl⟩, later⟩
      · simp
      · simpa using chosen

end Token

/-- A source is cut into blanks and matches, to its end or to where it is at fault. If it is accepted, its tokens are the
matches other than comments and an end mark: each is the match that the first of the rules that take the most from there
takes, no two stand at the same offset, and every place is counted from what stands before it. If it is refused, the fault is
told of the first place without a blank that a rule faults at, or that no rule takes anything at. -/
theorem tokens_partition (rules : List LexRule) (inside : ∀ rule ∈ rules, rule.pattern.Inside) (source : String)
    (file : Option String) :
    (∃ pieces rest fault, Cut rules source.toList pieces rest ∧ Stuck rules rest fault ∧
      (∀ tokens, tokenize rules source file = .ok tokens →
        rest = [] ∧ tokens = Piece.tokens file [] pieces ++ [⟨.finish, "", .behind file source.toList⟩] ∧
          (tokens.map fun token => token.position.offset).Pairwise (· < ·) ∧
          ∀ token ∈ Piece.tokens file [] pieces, token.Stands rules file source.toList) ∧
      ∀ diagnostic, tokenize rules source file = .error diagnostic →
        ∃ cause, fault = some cause ∧ diagnostic = .located cause (.behind file (Piece.texts pieces))) ∧
      ∀ rule ∈ LexRule.standard, rule.pattern.Inside := by
  obtain ⟨pieces, rest, fault, cut, stuck⟩ := Cut.until_stuck rules inside source.toList
  have read := Token.tokenize_cut rules file source rest pieces fault cut stuck
  refine ⟨⟨pieces, rest, fault, cut, stuck, fun tokens accepted => ?_, fun diagnostic refused => ?_⟩,
    LexRule.standard_within⟩
  · cases stuck with
    | refused | untouched => cases read.symm.trans accepted
    | ended =>
      have whole := cut.whole
      rw [List.append_nil] at whole
      rw [← whole] at read
      cases read.symm.trans accepted
      have last : (⟨.finish, "", .behind file source.toList⟩ : Token).position =
          .behind file ([] ++ Piece.texts pieces) := by rw [List.nil_append, ← whole]
      exact ⟨rfl, rfl, (Token.tokens_increase rules file _ _ pieces cut [] _ last).1,
        Token.tokens_stand rules file _ _ pieces cut []⟩
  · cases fault with
    | none => cases read.symm.trans refused
    | some cause =>
      cases read.symm.trans refused
      exact ⟨cause, rfl, rfl⟩

-- Characters of two bytes, and a comment with a newline in it.
theorem tokens_partition_accents :
    let source := "x = 'é' /* ü\n*/ y"
    let places : List (Nat × Nat × Nat) := [(1, 1, 0), (1, 3, 2), (1, 5, 4), (2, 4, 18), (2, 5, 19)]
    (∀ rule ∈ LexRule.standard, rule.pattern.Inside) ∧ ∃ pieces tokens, tokenize LexRule.standard source none = .ok tokens ∧
      (tokens.map fun token => (token.position.line, token.position.column, token.position.offset)) = places ∧
      Cut LexRule.standard source.toList pieces [] ∧
      tokens = Piece.tokens none [] pieces ++ [⟨.finish, "", .behind none source.toList⟩] := by
  intro source places
  have seen : (tokenize LexRule.standard source none).toOption.map (List.map fun token : Token =>
      (token.position.line, token.position.column, token.position.offset)) = some places := by decide +kernel
  cases read : tokenize LexRule.standard source none with
  | error diagnostic =>
    rw [read] at seen
    cases seen
  | ok tokens =>
    rw [read] at seen
    obtain ⟨⟨pieces, rest, _, cut, _, accepted, _⟩, standard⟩ :=
      tokens_partition LexRule.standard LexRule.standard_within source none
    obtain ⟨rfl, same, _⟩ := accepted tokens read
    exact ⟨standard, pieces, tokens, rfl, Option.some.inj seen, cut, same⟩

end CoopScript
