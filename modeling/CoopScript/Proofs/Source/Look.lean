import CoopScript.Proofs.Source.Cut

set_option autoImplicit false
namespace CoopScript

namespace LexRule

theorem standard_inside (rule : LexRule) (member : rule ∈ standard) : rule.kind ≠ .finish := by
  simp only [standard, List.mem_cons, List.not_mem_nil, or_false] at member
  rcases member with rfl | rfl | rfl | rfl | rfl | rfl | rfl | rfl <;> decide

end LexRule

-- What matters of a token: what it is and how it is written.
def Token.look (token : Token) : TokenKind × String := (token.kind, token.text)

namespace Piece

theorem texts_append (pieces more : List Piece) : texts (pieces ++ more) = texts pieces ++ texts more :=
  List.flatMap_append

theorem tokens_append (file : Option String) (before : List Char) (pieces more : List Piece) :
    tokens file before (pieces ++ more) = tokens file before pieces ++ tokens file (before ++ texts pieces) more := by
  induction pieces generalizing before with
  | nil => rw [show texts [] = [] from rfl, List.append_nil]; rfl
  | cons piece rest ih =>
    rw [List.cons_append, tokens, tokens, ih, texts_cons, List.append_assoc, List.append_assoc]

def look? : Piece → Option (TokenKind × String)
  | blank _ => none
  | taken rule text => if rule.kind.isTrivia then none else some (rule.kind, String.ofList text)

theorem looks_tokens (file : Option String) (before : List Char) (pieces : List Piece) :
    (tokens file before pieces).map Token.look = pieces.filterMap look? := by
  induction pieces generalizing before with
  | nil => rfl
  | cons piece rest ih =>
    rw [tokens, List.map_append, ih]
    cases piece with
    | blank c => rfl
    | taken rule text =>
      cases trivia : rule.kind.isTrivia <;> simp [token?, look?, trivia, Token.look]

end Piece

namespace Token
variable (source : String) (file : Option String) (tokens : List Token)

theorem read_whole (read : tokenize LexRule.standard source file = .ok tokens) :
    ∃ pieces, Cut LexRule.standard source.toList pieces [] ∧
      tokens = Piece.tokens file [] pieces ++ [⟨.finish, "", .behind file source.toList⟩] := by
  obtain ⟨pieces, rest, fault, cut, stuck⟩ := Cut.until_stuck LexRule.standard LexRule.standard_within source.toList
  have known := tokenize_cut LexRule.standard file source rest pieces fault cut stuck
  cases stuck with
  | refused | untouched => cases known.symm.trans read
  | ended =>
    have whole := cut.whole
    rw [List.append_nil] at whole
    rw [← whole] at known
    cases known.symm.trans read
    exact ⟨pieces, cut, rfl⟩

theorem read_finish (read : tokenize LexRule.standard source file = .ok tokens) :
    ∃ front last, tokens = front ++ [last] ∧ last.look = (.finish, "") ∧ ∀ token ∈ front, token.kind ≠ .finish := by
  obtain ⟨pieces, cut, rfl⟩ := read_whole source file tokens read
  refine ⟨_, _, rfl, rfl, fun token member => ?_⟩
  obtain ⟨_, _, rule, _, _, chosen, kind⟩ := tokens_stand LexRule.standard file _ _ pieces cut [] token member
  exact kind ▸ rule.standard_inside (LexRule.chosen_member _ _ _ _ chosen)

theorem read_renamed (twin : Option String) (read : tokenize LexRule.standard source file = .ok tokens) :
    ∃ others, tokenize LexRule.standard source twin = .ok others ∧ tokens.map look = others.map look := by
  obtain ⟨pieces, cut, rfl⟩ := read_whole source file tokens read
  refine ⟨_, tokenize_cut LexRule.standard twin source [] pieces none cut .ended, ?_⟩
  rw [List.map_append, List.map_append, Piece.looks_tokens, Piece.looks_tokens]
  rfl

end Token

end CoopScript
