import CoopScript.Proofs.Grammar.Image
import Mathlib.Data.List.TakeWhile

set_option autoImplicit false
namespace CoopScript

namespace Token

def partner? : String → Option String
  | "(" => some ")"
  | "[" => some "]"
  | "\x7b" => some "\x7d"
  | _ => none

theorem partner_closes (text closing : String) (partners : partner? text = some closing) : partner? closing = none := by
  unfold partner? at partners
  split at partners <;> cases partners <;> rfl

-- Every bracket that opens something is closed by its partner, with balanced tokens between them.
inductive Balanced : List Token → Prop
  | nothing : Balanced []
  | plain (token : Token) (rest : List Token) (other : token.kind ≠ .bracket) (further : Balanced rest) :
      Balanced (token :: rest)
  | pair (opening closing : Token) (inside rest : List Token) (opens : opening.kind = .bracket)
      (closes : closing.kind = .bracket) (partners : partner? opening.text = some closing.text) (within : Balanced inside)
      (further : Balanced rest) : Balanced (opening :: inside ++ closing :: rest)

-- A bracket opens something and is never closed, and no bracket behind it is left like that.
structure Unclosed (tokens front : List Token) (opening : Token) (back : List Token) : Prop where
  split : tokens = front ++ opening :: back
  bracket : opening.kind = .bracket
  opens : (partner? opening.text).isSome = true
  balanced : Balanced back

-- The tokens before the end mark.
def body (tokens : List Token) : List Token := tokens.takeWhile fun token => token.kind ≠ .finish

theorem body_inside (tokens : List Token) : ∀ token ∈ body tokens, token.kind ≠ .finish := by
  intro token member
  have within := List.mem_takeWhile_imp member
  simpa using within

-- The brackets that are open behind a token, the innermost first; nothing when it closes what is not open.
def shift (token : Token) (stack : List Token) : Option (List Token) :=
  if token.kind ≠ .bracket then some stack
  else if (partner? token.text).isSome then some (token :: stack)
  else
    match stack with
    | [] => none
    | opening :: outer => if partner? opening.text = some token.text then some outer else none

def open? : List Token → List Token → Option (List Token)
  | _, [] => none
  | stack, token :: rest =>
    if token.kind = .finish then some stack else (token.shift stack).bind fun next => open? next rest

section Shift
variable (token : Token) (stack : List Token)

theorem shift_plain (other : token.kind ≠ .bracket) : token.shift stack = some stack := if_pos other

theorem shift_opening (bracket : token.kind = .bracket) (opens : (partner? token.text).isSome = true) :
    token.shift stack = some (token :: stack) := by
  unfold shift
  rw [if_neg (not_not_intro bracket), if_pos opens]

theorem shift_closing (opening : Token) (bracket : token.kind = .bracket)
    (partners : partner? opening.text = some token.text) : token.shift (opening :: stack) = some stack := by
  unfold shift
  rw [if_neg (not_not_intro bracket), partner_closes _ _ partners]
  exact if_pos partners

theorem open_next (next rest : List Token) (inside : token.kind ≠ .finish) (shifted : token.shift stack = some next) :
    open? stack (token :: rest) = open? next rest := by
  rw [open?, if_neg inside, shifted]
  rfl

end Shift

namespace Balanced

theorem append (tokens more : List Token) (balanced : Balanced tokens) (further : Balanced more) :
    Balanced (tokens ++ more) := by
  induction balanced with
  | nothing => exact further
  | plain token rest other _ ih => exact .plain token _ other ih
  | pair opening closing inside rest opens closes partners within _ _ ih =>
    rw [List.append_assoc]
    exact .pair opening closing inside _ opens closes partners within ih

theorem passes (tokens : List Token) (balanced : Balanced tokens) (inside : ∀ token ∈ tokens, token.kind ≠ .finish)
    (stack more : List Token) : open? stack (tokens ++ more) = open? stack more := by
  induction balanced generalizing stack more with
  | nothing => rfl
  | plain token rest other _ ih =>
    obtain ⟨here, later⟩ := List.forall_mem_cons.mp inside
    exact (open_next token stack stack _ here (shift_plain token stack other)).trans (ih later stack more)
  | pair opening closing within rest opens closes partners _ _ first second =>
    obtain ⟨here, later⟩ := List.forall_mem_append.mp inside
    obtain ⟨begun, early⟩ := List.forall_mem_cons.mp here
    obtain ⟨ended, late⟩ := List.forall_mem_cons.mp later
    rw [List.append_assoc]
    calc open? stack (opening :: within ++ (closing :: rest ++ more))
      _ = open? (opening :: stack) (within ++ (closing :: rest ++ more)) :=
        open_next opening stack _ _ begun (shift_opening opening stack opens (by rw [partners]; rfl))
      _ = open? (opening :: stack) (closing :: rest ++ more) := first early _ _
      _ = open? stack (rest ++ more) := open_next closing _ _ _ ended (shift_closing closing stack opening closes partners)
      _ = open? stack more := second late stack more

end Balanced

-- What has been seen when a stack of brackets is open: balanced tokens, and one of the brackets between any two of
-- them.
inductive Pending : List Token → List Token → Prop
  | even (seen : List Token) (balanced : Balanced seen) : Pending [] seen
  | opened (opening : Token) (outer front back : List Token) (bracket : opening.kind = .bracket)
      (opens : (partner? opening.text).isSome = true) (earlier : Pending outer front) (balanced : Balanced back) :
      Pending (opening :: outer) (front ++ opening :: back)

namespace Pending

theorem append (stack seen more : List Token) (pending : Pending stack seen) (further : Balanced more) :
    Pending stack (seen ++ more) := by
  cases pending with
  | even _ balanced => exact .even _ (balanced.append _ _ further)
  | opened opening outer front back bracket opens earlier balanced =>
    rw [List.append_assoc]
    exact .opened opening outer front _ bracket opens earlier (balanced.append _ _ further)

theorem shifted (stack seen next : List Token) (token : Token) (pending : Pending stack seen)
    (shifted : token.shift stack = some next) : Pending next (seen ++ [token]) := by
  by_cases bracket : token.kind = .bracket
  · by_cases opens : (partner? token.text).isSome = true
    · cases (shift_opening token stack bracket opens).symm.trans shifted
      exact .opened token stack seen [] bracket opens pending .nothing
    · unfold shift at shifted
      rw [if_neg (not_not_intro bracket), if_neg opens] at shifted
      cases pending with
      | even => cases shifted
      | opened opening outer front back begun _ earlier balanced =>
        by_cases partners : partner? opening.text = some token.text
        · cases (if_pos partners).symm.trans shifted
          -- The pair and what stands between it are balanced now, and belong to the bracket further out.
          rw [List.append_assoc]
          exact earlier.append _ _ _ (.pair opening token back [] begun bracket partners balanced .nothing)
        · cases (if_neg partners).symm.trans shifted
  · cases (shift_plain token stack bracket).symm.trans shifted
    exact pending.append _ _ _ (.plain token [] bracket .nothing)

theorem read (tokens stack seen left : List Token) (known : open? stack tokens = some left) (pending : Pending stack seen) :
    Pending left (seen ++ body tokens) := by
  induction tokens generalizing stack seen with
  | nil => cases known
  | cons token rest ih =>
    by_cases ended : token.kind = .finish
    · cases (if_pos ended).symm.trans known
      simpa [body, ended] using pending
    · rw [open?, if_neg ended] at known
      obtain ⟨next, shifted, further⟩ := Option.bind_eq_some_iff.mp known
      have later := ih next (seen ++ [token]) further (pending.shifted stack seen next token shifted)
      rw [List.append_assoc] at later
      simpa [body, ended] using later

end Pending

theorem open_append (tokens more stack left : List Token) (inside : ∀ token ∈ tokens, token.kind ≠ .finish)
    (known : open? stack (tokens ++ more) = some left) : ∃ middle, open? middle more = some left := by
  induction tokens generalizing stack with
  | nil => exact ⟨stack, known⟩
  | cons token rest ih =>
    obtain ⟨here, later⟩ := List.forall_mem_cons.mp inside
    rw [List.cons_append, open?, if_neg here] at known
    obtain ⟨next, -, further⟩ := Option.bind_eq_some_iff.mp known
    exact ih next later further

namespace Unclosed
variable (tokens front : List Token) (opening : Token) (back : List Token) (unclosed : Unclosed tokens front opening back)
  (inside : ∀ token ∈ tokens, token.kind ≠ .finish)
include unclosed inside

theorem not_balanced : ¬ Balanced tokens := by
  intro balanced
  obtain ⟨rfl, bracket, opens, later⟩ := unclosed
  obtain ⟨early, behind⟩ := List.forall_mem_append.mp inside
  obtain ⟨here, late⟩ := List.forall_mem_cons.mp behind
  -- Balanced tokens would leave nothing open at an end mark, and the bracket is still open there.
  have passed : open? [] (front ++ opening :: back ++ [⟨.finish, "", default⟩]) = some [] :=
    balanced.passes _ inside [] _
  rw [List.append_assoc] at passed
  obtain ⟨middle, known⟩ := open_append front _ [] [] early passed
  have left : open? middle (opening :: back ++ [⟨.finish, "", default⟩]) = some (opening :: middle) :=
    (open_next opening middle _ _ here (shift_opening opening middle bracket opens)).trans (later.passes back late _ _)
  cases left.symm.trans known

theorem alone (start : List Token) (other : Token) (rest : List Token) (rival : Unclosed tokens start other rest) :
    other = opening := by
  -- The one that stands first would have the other, left open, among the balanced tokens behind it.
  have first (near far : Token) (before behind between : List Token) (same : near :: behind = between ++ far :: before)
      (late : ∀ token ∈ behind, token.kind ≠ .finish) (even : Balanced behind) (bracket : far.kind = .bracket)
      (opens : (partner? far.text).isSome = true) (last : Balanced before) : far = near := by
    cases between with
    | nil => exact (List.cons.inj same).1.symm
    | cons _ between =>
      exact absurd even (not_balanced behind between far before ⟨(List.cons.inj same).2, bracket, opens, last⟩ late)
  obtain ⟨rfl, bracket, opens, later⟩ := unclosed
  obtain ⟨split, second, further, last⟩ := rival
  rcases List.append_eq_append_iff.mp split with ⟨between, -, same⟩ | ⟨between, -, same⟩
  · exact first opening other rest back between same
      (fun token member => inside token (List.mem_append_right _ (List.mem_cons_of_mem _ member))) later second further last
  · rw [split] at inside
    exact (first other opening back rest between same
      (fun token member => inside token (List.mem_append_right _ (List.mem_cons_of_mem _ member))) last bracket opens later).symm

end Unclosed

end Token

namespace Cursor
variable (cursor : Cursor) (stack : List Token)

-- The brackets that are open at the end mark, when these are open here.
def open? : Option (List Token) := Token.open? stack (cursor.current :: cursor.rest)

theorem open_end (ended : cursor.atEnd = true) : cursor.open? stack = some stack := by
  simp only [atEnd, isKind, decide_eq_true_eq] at ended
  exact if_pos ended

theorem advance_open (next : List Token) (inside : cursor.current.kind ≠ .finish)
    (shifted : cursor.current.shift stack = some next) : cursor.advance.open? next = cursor.open? stack := by
  rw [open?, open?, Token.open_next _ _ _ _ inside shifted]
  unfold advance
  split
  next ended =>
    -- The last token stays in view, and there is no end mark to come.
    simp [ended, Token.open?, inside]
  next current rest more => rw [if_neg inside, more]

theorem plain_kind (kind : TokenKind) (shown : cursor.isKind kind = true) (other : kind ≠ .bracket) :
    cursor.current.kind ≠ .bracket := decide_eq_true_eq.mp shown ▸ other

theorem plain_is (kind : TokenKind) (text : String) (shown : cursor.current.is kind text = true) (other : kind ≠ .bracket) :
    cursor.current.kind ≠ .bracket := cursor.plain_kind kind (Bool.and_eq_true_iff.mp shown).1 other

theorem plain_name (named : cursor.isName = true) : cursor.current.kind ≠ .bracket :=
  cursor.plain_kind .word (Bool.and_eq_true_iff.mp named).1 (by decide)

theorem plain_symbol (symbols : List String) (shown : ExpressionForm.isAnySymbol symbols cursor = true) :
    cursor.current.kind ≠ .bracket :=
  have ⟨symbol, _, here⟩ := List.any_eq_true.mp shown
  cursor.plain_is .symbol symbol here (by decide)

theorem advance_plain (plain : cursor.current.kind ≠ .bracket) : cursor.advance.open? stack = cursor.open? stack := by
  by_cases ended : cursor.current.kind = .finish
  · have same : cursor.advance = cursor := by
      unfold advance
      split
      next => rfl
      next => rw [if_pos ended]
    rw [same]
  · exact cursor.advance_open stack stack ended (Token.shift_plain _ stack plain)

theorem advance_opening (text closing : String) (shown : cursor.isBracket text = true)
    (partners : Token.partner? text = some closing) :
    cursor.advance.open? (cursor.current :: stack) = cursor.open? stack := by
  simp only [isBracket, Token.is, Bool.and_eq_true, decide_eq_true_eq] at shown
  obtain ⟨bracket, rfl⟩ := shown
  exact cursor.advance_open stack _ (by rw [bracket]; decide) (Token.shift_opening _ stack bracket (by rw [partners]; rfl))

theorem advance_closing (opening : Token) (closing : String) (shown : cursor.isBracket closing = true)
    (partners : Token.partner? opening.text = some closing) :
    cursor.advance.open? stack = cursor.open? (opening :: stack) := by
  simp only [isBracket, Token.is, Bool.and_eq_true, decide_eq_true_eq] at shown
  obtain ⟨bracket, rfl⟩ := shown
  exact cursor.advance_open _ stack (by rw [bracket]; decide) (Token.shift_closing _ stack opening bracket partners)

theorem skip_open : cursor.skipSeparators.open? stack = cursor.open? stack := by
  have skipped (tokens : List Token) (current : Token) :
      (skipFrom current tokens).open? stack = Token.open? stack (current :: tokens) := by
    induction tokens generalizing current with
    | nil => rfl
    | cons next rest ih =>
      unfold skipFrom
      split
      next separator =>
        rw [ih, Token.open_next current stack stack _ (by rw [separator]; decide)
          (Token.shift_plain current stack (by rw [separator]; decide))]
      next => rfl
  exact skipped cursor.rest cursor.current

end Cursor

end CoopScript
