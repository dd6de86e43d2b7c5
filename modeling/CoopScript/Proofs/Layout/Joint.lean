import CoopScript.Proofs.Layout.Source
import CoopScript.Proofs.Source.Lines

set_option autoImplicit false
namespace CoopScript

open Lens (placeless)

-- One source behind another.
def joint (first second : String) : String := first ++ "\n;\n" ++ second

namespace Token

theorem read_joint (first second : String) (file : Option String) (tokens others : List Token)
    (read : tokenize LexRule.standard first file = .ok tokens) (reread : tokenize LexRule.standard second file = .ok others) :
    ∃ front whole, tokens.map look = front ++ [(.finish, "")] ∧
      tokenize LexRule.standard (joint first second) file = .ok whole ∧
      whole.map look = front ++ (.separator, ";") :: others.map look := by
  obtain ⟨pieces, cut, rfl⟩ := read_whole first file tokens read
  obtain ⟨more, further, rfl⟩ := read_whole second file others reread
  -- The separator is chosen where nothing follows it, and so also where a newline does.
  let separator : LexRule := ⟨"separator", .separator, .fixed ";"⟩
  have chosen : LexRule.Chosen LexRule.standard [';'] separator 1 := by
    have found : Match.longest [';'] none LexRule.standard = .ok (some ⟨separator, 1⟩) := rfl
    rcases Match.longest_cases [';'] LexRule.standard with ⟨_, ended, _⟩ | ⟨ended, _⟩ | ⟨_, ended, chosen⟩ <;>
      cases found.symm.trans ended
    exact chosen
  have between : Cut LexRule.standard ('\n' :: ';' :: '\n' :: second.toList)
      ([.blank '\n', .taken separator [';'], .blank '\n'] ++ more) [] :=
    .blank _ _ _ _ (by decide) (.taken separator ';' [] _ _ _ (by decide)
      (LexRule.chosen_ended _ LexRule.standard_settled _ _ _ _ chosen) (.blank _ _ _ _ (by decide) further))
  have whole := (Cut.ended _ LexRule.standard_settled _ _ (';' :: '\n' :: second.toList) pieces cut).joined _ _ _ _ _ _ between
  have text : (joint first second).toList = first.toList ++ '\n' :: ';' :: '\n' :: second.toList := by
    simp [joint]
  rw [← text] at whole
  have all := tokenize_cut LexRule.standard file (joint first second) [] _ none whole .ended
  refine ⟨pieces.filterMap Piece.look?, _, ?_, all, ?_⟩
  · rw [List.map_append, Piece.looks_tokens]
    rfl
  · rw [List.map_append, List.map_append, Piece.looks_tokens, Piece.looks_tokens, List.filterMap_append, List.append_assoc]
    rfl

end Token

def Sequel.going (more : List Token) : Sequel :=
  ⟨some (⟨.separator, ";", default⟩, more), False, False.elim, fun _ _ same => by cases same; rfl⟩

namespace Sequel
variable (more : List Token)

theorem going_tokens (front : List Token) (mark : Token) (ended : mark.kind = .finish)
    (inside : ∀ token ∈ front, token.kind ≠ .finish) : (going more).tokens (front ++ [mark]) =
      front.map Token.unplaced ++ ⟨.separator, ";", default⟩ :: more := by
  have last : (going more).first mark :: (going more).later mark = ⟨.separator, ";", default⟩ :: more := by
    simp [first, later, going, ended]
  rw [tokens, List.flatMap_append, List.flatMap_singleton, last]
  refine congrArg (· ++ _) ?_
  induction front with
  | nil => rfl
  | cons token rest ih =>
    obtain ⟨here, further⟩ := List.forall_mem_cons.mp inside
    obtain ⟨shown, nothing⟩ := (going more).first_inside token here
    rw [List.flatMap_cons, shown, nothing, ih further]
    rfl

theorem going_on (cursor start : Cursor) (begun : Cursor.ofTokens? more = some start) (ends : cursor.skipSeparators.Ends)
    (ended : cursor.skipSeparators.atEnd = true) :
    ((going more).cursor cursor).skipSeparators = start.skipSeparators := by
  have alone : cursor.skipSeparators.rest = [] := by
    by_contra further
    rw [(cursor.skipSeparators.ends_rest ends).mpr further] at ended
    cases ended
  rw [← (going more).skip_again]
  generalize cursor.skipSeparators = place at ended alone
  obtain ⟨mark, rest⟩ := place
  obtain rfl : rest = [] := alone
  have finish : mark.kind = .finish := of_decide_eq_true ended
  cases more with
  | nil => cases begun
  | cons next more =>
    cases begun
    have shown : (going (next :: more)).cursor ⟨mark, []⟩ = ⟨⟨.separator, ";", default⟩, next :: more⟩ := by
      simp [Sequel.cursor, tokens, first, later, going, finish]
    rw [shown]
    rfl

end Sequel

namespace Reader
variable (reader : Reader) (items : List Node) (cursor : Cursor)

-- Read where more follows, the first lines are read as they are read alone, and then what follows is read. Each line
-- takes a token, and a round at most.
theorem program_goes_on (more : List Token) (start : Cursor) (begun : Cursor.ofTokens? more = some start)
    (other : Reader) (echoes : reader.Echoes (.going more) other) (fuel : Nat) (lines : List Node) (rest : Cursor)
    (ends : cursor.Ends) (read : Parse.iterate reader.programStep fuel items cursor.skipSeparators = .ok lines rest) :
    ∃ rounds ≤ cursor.rest.length, ∀ spare,
      Parse.iterate other.programStep (spare + rounds) (placeless.lines items)
          ((Sequel.going more).cursor cursor).skipSeparators =
        Parse.iterate other.programStep spare (placeless.lines lines).reverse start.skipSeparators := by
  induction fuel generalizing items cursor with
  | zero => cases read
  | succ fuel ih =>
    obtain ⟨further, fewer⟩ := cursor.ends_skip ends
    unfold Parse.iterate at read
    cases ended : cursor.skipSeparators.atEnd with
    | true =>
      rw [reader.program_step_ended items _ ended] at read
      cases read
      refine ⟨0, Nat.zero_le _, fun spare => ?_⟩
      rw [Sequel.going_on more cursor start begun further ended, Lens.lines, Lens.lines, List.map_reverse,
        List.reverse_reverse]
      rfl
    | false =>
      have line := echoes.statement cursor.skipSeparators further
      rw [reader.program_step_inside items _ ended] at read
      cases ran : reader.statement cursor.skipSeparators with
      | failed | stalled =>
        rw [ran] at read
        cases read
      | ok item middle =>
        rw [ran] at line read
        obtain ⟨again, middleEnds, shorter⟩ := line
        obtain ⟨rounds, few, same⟩ := ih (item :: items) middle middleEnds read
        have inside := List.length_pos_iff.mpr ((cursor.skipSeparators.ends_rest further).mp ended)
        refine ⟨rounds + 1, by omega, fun spare => ?_⟩
        have onward : ((Sequel.going more).cursor cursor.skipSeparators).atEnd = false :=
          ((Sequel.going more).end_cursor _ (.inr ended)).trans ended
        rw [(Sequel.going more).skip_cursor cursor (.inr ended), ← Nat.add_assoc, Parse.iterate,
          other.program_step_inside _ _ onward, again]
        exact same spare

end Reader

namespace Grammar

theorem parse_rounds (tokens : List Token) (cursor : Cursor) (started : Cursor.ofTokens? tokens = some cursor) :
    standard.parse tokens = Parse.iterate (Reader.ofFuel standard (allowance tokens)).programStep (allowance tokens) []
      cursor.skipSeparators := by
  unfold parse
  rw [started]
  show (Reader.ofFuel standard (allowance tokens)).program cursor = _
  rw [Reader.program_rounds, Reader.of_fuel_fuel]
  rfl

theorem parse_goes_on (front behind : List Token) (mark stop : Token) (ended : mark.kind = .finish)
    (stopped : stop.kind = .finish) (inside : ∀ token ∈ front, token.kind ≠ .finish)
    (further : ∀ token ∈ behind, token.kind ≠ .finish) (lines more : List Node) (rest last : Cursor)
    (read : standard.parse (front ++ [mark]) = .ok lines rest) (reread : standard.parse (behind ++ [stop]) = .ok more last) :
    ∃ left, standard.parse (front.map Token.unplaced ++ ⟨.separator, ";", default⟩ :: (behind ++ [stop]).map Token.unplaced) =
      .ok (placeless.lines lines ++ placeless.lines more) left := by
  let tail := (behind ++ [stop]).map Token.unplaced
  let all := front.map Token.unplaced ++ ⟨.separator, ";", default⟩ :: tail
  have size : all.length = front.length + behind.length + 2 := by simp [all, tail]; omega
  obtain ⟨cursor, started, ends, length, same⟩ := Cursor.of_tokens_ends front mark ended inside
  obtain ⟨second, begun, secondEnds, _, secondSame⟩ := Cursor.of_tokens_ends behind stop stopped further
  have joined : Cursor.ofTokens? all = some ((Sequel.going tail).cursor cursor) := by
    rw [show all = (Sequel.going tail).tokens (cursor.current :: cursor.rest) from
      same ▸ (Sequel.going_tokens tail front mark ended inside).symm]
    rfl
  have next : Cursor.ofTokens? tail = some ((Sequel.ending False).cursor second) := by
    rw [show tail = (second.current :: second.rest).map Token.unplaced from congrArg _ secondSame.symm,
      Sequel.ending_cursor]
    rfl
  rw [parse_rounds _ _ started] at read
  rw [parse_rounds _ _ begun] at reread
  have firstSteps : allowance (front ++ [mark]) ≤ allowance all := by simp [allowance, size]; omega
  obtain ⟨rounds, few, goes⟩ := Reader.program_goes_on _ [] cursor tail _ next _
    (Reader.of_fuel_echoes (.going tail) _ (allowance all) firstSteps False.elim) _ lines rest ends read
  have secondSteps : allowance (behind ++ [stop]) ≤ allowance all - rounds := by simp [allowance, size]; omega
  have onward := Parse.echoes_iterate (.ending False) _ _ _ _
    (Reader.program_step_echoes (.ending False) _ _
      (Reader.of_fuel_echoes (.ending False) _ (allowance all) (secondSteps.trans (Nat.sub_le _ _)) False.elim) rfl
      (placeless.lines lines).reverse)
    _ _ secondSteps False.elim [] second.skipSeparators (second.ends_skip secondEnds).1
  rw [reread] at onward
  have begins := goes (allowance all - rounds)
  rw [Nat.sub_add_cancel (by simp [allowance, size]; omega)] at begins
  rw [(Sequel.ending False).skip_cursor second (.inl rfl)] at begins
  have given := onward.1
  rw [List.reverse_reverse] at given
  exact ⟨_, (parse_rounds all _ joined).trans (begins.trans given)⟩

end Grammar

namespace RuleSet

theorem parse_tokens (source : String) (file : Option String) (lines : List Node)
    (parsed : standard.parse source file = some (.ok lines)) : ∃ tokens rest,
      tokenize LexRule.standard source file = .ok tokens ∧ Grammar.standard.parse tokens = .ok lines rest := by
  unfold parse at parsed
  split at parsed
  next => cases parsed
  next tokens read =>
    split at parsed
    next nodes rest spelled =>
      cases parsed
      exact ⟨tokens, rest, read, spelled⟩
    next => cases parsed
    next => cases parsed

theorem parse_placed (source : String) (file : Option String) (lines : List Node)
    (read : (standard.parse source file).map unplaced = some (.ok lines)) :
    ∃ own, standard.parse source file = some (.ok own) ∧ placeless.lines own = lines := by
  cases parsed : standard.parse source file with
  | none =>
    rw [parsed] at read
    cases read
  | some result =>
    rw [parsed] at read
    cases result with
    | error diagnostic => cases read
    | ok own => exact ⟨own, rfl, Except.ok.inj (Option.some.inj read)⟩

theorem parse_renamed (source : String) (file twin : Option String) (lines : List Node)
    (parsed : standard.parse source file = some (.ok lines)) :
    ∃ own, standard.parse source twin = some (.ok own) ∧ placeless.lines own = placeless.lines lines := by
  obtain ⟨tokens, _, read, _⟩ := parse_tokens source file lines parsed
  obtain ⟨others, reread, same⟩ := Token.read_renamed source file tokens twin read
  have alike := parse_alike source source file twin tokens others read reread same
  rw [parsed] at alike
  exact parse_placed source twin _ alike.symm

theorem parse_joint (first second : String) (file : Option String) (lines others : List Node)
    (parsed : standard.parse first file = some (.ok lines)) (reparsed : standard.parse second file = some (.ok others)) :
    ∃ whole, standard.parse (joint first second) file = some (.ok whole) ∧
      placeless.lines whole = placeless.lines lines ++ placeless.lines others := by
  obtain ⟨tokens, rest, read, spelled⟩ := parse_tokens first file lines parsed
  obtain ⟨more, last, reread, respelled⟩ := parse_tokens second file others reparsed
  obtain ⟨looks, whole, firstLooks, joined, wholeLooks⟩ := Token.read_joint first second file tokens more read reread
  obtain ⟨front, mark, rfl, marked, inside⟩ := Token.read_finish first file tokens read
  obtain ⟨behind, stop, rfl, stopped, further⟩ := Token.read_finish second file more reread
  obtain ⟨left, all⟩ := Grammar.parse_goes_on front behind mark stop (congrArg Prod.fst marked) (congrArg Prod.fst stopped)
    inside further lines others rest last spelled respelled
  have same : whole.map Token.unplaced =
      front.map Token.unplaced ++ ⟨.separator, ";", default⟩ :: (behind ++ [stop]).map Token.unplaced := by
    rw [List.map_append] at firstLooks
    have frontLooks := (List.append_inj' firstLooks rfl).1
    have looks : whole.map Token.look = (front ++ ⟨.separator, ";", default⟩ :: (behind ++ [stop])).map Token.look := by
      rw [wholeLooks, ← frontLooks]
      simp [Token.look]
    exact (Token.unplaced_looks _ _ looks).trans List.map_append
  have seen := parse_unplaced (joint first second) file whole joined
  rw [same, all] at seen
  exact parse_placed (joint first second) file _ seen

end RuleSet

end CoopScript
