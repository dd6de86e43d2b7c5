import CoopScript.Interpreter
import CoopScript.Proofs.Exit.Call

set_option autoImplicit false
namespace CoopScript

namespace Node

def shape : Node → String
  | binary .. => "binary"
  | unary .. => "unary"
  | group .. => "group"
  | call .. => "call"
  | assign .. => "assign"
  | access .. => "access"
  | array .. => "array"
  | index .. => "index"
  | await .. => "await"
  | function .. => "fn"
  | giveBack .. => "return"
  | branch .. => "if"
  | loop .. => "while"
  | block .. => "block"
  | number _ | text _ | void | reference .. => ""

variable (leeway : Leeway) (node : Node)

theorem still_named (fits : node.still leeway = true) : node.label = node.shape := by
  cases node <;> simp_all [still, label, head, shape]

theorem tolerant_named (fits : node.tolerant leeway = true) : node.label = node.shape := by
  cases node with
  | unary name position op operand => cases op <;> simp_all [tolerant, label, head, shape]
  | _ => simp_all [tolerant, label, head, shape]

theorem prudent_named (inside : Bool) (fits : node.prudent leeway inside = true) : node.label = node.shape := by
  cases node with
  | function | loop | block => simp_all [prudent, label, head, shape]
  | giveBack keyword position value => cases value <;> simp_all [prudent, label, head, shape]
  | branch keyword position condition whenTrue whenFalse =>
    cases whenFalse <;> simp_all [prudent, label, head, shape]
  | _ => exact tolerant_named leeway _ (by simpa [prudent] using fits)

end Node

namespace Exec
variable {α : Type} {leeway : Leeway} {frame : FrameId} {start last level : Bool → Prop} {good : α → Prop}

theorem tends_risked (risks : leeway.risks = true) {step : Exec α} (tends : step.Tends leeway frame start Anyhow good) :
    step.Tends leeway frame start leeway.Operates good :=
  tends_weaken tends (fun _ begun => begun) (fun _ _ _ => risks) fun _ fine => fine

theorem tends_fail_named_both (first second : Value) (cause : String → String → Cause)
    (refusal : ∀ name later, (cause name later).isRefusal = true) :
    Tends leeway frame leeway.Operates last good (do fail (cause (← nameOf first) (← nameOf second)) : Exec α) :=
  tends_bind _ (tends_name_of first) fun name _ => tends_fail_named second (cause name) (refusal name)

theorem tends_on_data (op : BinaryOp) (left right : Value) (result : Exec Value) (leftTame : left.Tame leeway)
    (rightTame : right.Tame leeway) (computed : onData op left.data right.data = some result) :
    result.Tends leeway frame level level (Value.Tame leeway) := by
  have text : ∀ content, (Exec.text content).Tends leeway frame level level (Value.Tame leeway) :=
    fun content => tends_better (tends_text content) fun _ fine => fine.1
  have flag : ∀ truth, (Exec.flag truth).Tends leeway frame level level (Value.Tame leeway) :=
    fun truth => tends_better (tends_flag truth) fun _ fine => fine.1
  unfold onData at computed
  split at computed
  next =>
    unfold onNumbers at computed
    split at computed
    · cases computed
      exact tends_number _
    · cases computed
      exact flag _
    · cases computed
  next =>
    unfold onTexts at computed
    split at computed
    · cases computed
      exact text _
    · cases computed
      exact flag _
    · cases computed
  next identity leftItems other rightItems leftShape rightShape =>
    split at computed
    · cases computed
      apply tends_array
      intro item member
      rcases List.mem_append.mp member with first | second
      · exact left.tame_data_items leeway leftTame _ _ leftShape item first
      · exact right.tame_data_items leeway rightTame _ _ rightShape item second
    · cases computed
  next => cases computed

-- Values can be compared after the halt too.
theorem tends_compare (op : BinaryOp) (compares : op = .equal ∨ op = .notEqual) (left right : Value) :
    (operate op left right).Tends leeway frame level level (Value.Tame leeway) := by
  rcases compares with rfl | rfl <;> exact tends_better (tends_flag _) fun _ fine => fine.1

theorem tends_operate (op : BinaryOp) (left right : Value) (leftTame : left.Tame leeway)
    (rightTame : right.Tame leeway) :
    (operate op left right).Tends leeway frame leeway.Operates leeway.Operates (Value.Tame leeway) := by
  have unsupported : Tends leeway frame leeway.Operates leeway.Operates (Value.Tame leeway)
      (do fail (.unsupportedOperands op.symbol (← nameOf left) (← nameOf right)) : Exec Value) :=
    tends_fail_named_both left right (.unsupportedOperands op.symbol) fun _ _ => rfl
  by_cases compares : op = .equal ∨ op = .notEqual
  · exact tends_compare op compares left right
  · unfold operate
    split
    · exact absurd (.inl rfl) compares
    · exact absurd (.inr rfl) compares
    · cases computed : onData op left.data right.data with
      | some result => exact tends_on_data op left right result leftTame rightTame computed
      | none => exact unsupported

theorem tends_item_at (object place : Value) (tame : object.Tame leeway) :
    (itemAt object place).Tends leeway frame leeway.Operates leeway.Operates (Value.Tame leeway) := by
  unfold itemAt
  cases place.number? with
  | none => exact tends_fail_named place .indexNotNumber fun _ => rfl
  | some position =>
    simp only
    cases shape : object.data with
    | array identity items =>
      simp only
      cases found : (Number.natural? position).bind (items[·]?) with
      | some item =>
        obtain ⟨slot, _, read⟩ := Option.bind_eq_some_iff.mp found
        exact tends_pure _ (object.tame_data_items leeway tame identity items shape item (List.mem_of_getElem? read))
      | none => exact tends_fail (.outOfBounds position _) rfl
    | text content =>
      simp only
      cases (Number.natural? position).bind (content.toList[·]?) with
      | some c => exact tends_better (tends_text _) fun _ fine => fine.1
      | none => exact tends_fail (.outOfBounds position _) rfl
    | _ => exact tends_fail_named object .notIndexable fun _ => rfl

theorem tends_member_of (object : Value) (name : String) (tame : object.Tame leeway) :
    (memberOf object name).Tends leeway frame leeway.Operates leeway.Operates (Value.Tame leeway) := by
  unfold memberOf
  cases found : object.member? name with
  | some member => exact tends_pure _ (object.tame_member leeway tame name member found)
  | none => exact tends_fail_named object (.missingMember · name) fun _ => rfl

end Exec

-- What runs a node as far as the leeway goes.
structure Exec.Prudent (leeway : Leeway) (node : Node) (frame : FrameId) (step : Exec Value) : Prop where
  still : node.still leeway = true → step.Tends leeway frame leeway.Operates leeway.Operates (Value.Tame leeway)
  tolerant : node.tolerant leeway = true → step.Tends leeway frame leeway.Operates Anyhow (Value.Tame leeway)

namespace ExpressionRule
variable {leeway : Leeway} (engine : Engine) (prudent : engine.Prudent leeway) (name : String) (position : Position)
  (frame : FrameId) {middle last : Bool → Prop}

section Await
variable (operand : Node)
include prudent

theorem tends_await (awaits : leeway.awaits = true)
    (evaluated : (engine.evaluate operand frame).Tends leeway frame leeway.Operates Anyhow (Value.Tame leeway)) :
    (runAwait engine (.await name position operand) frame).Tends leeway frame leeway.Operates Anyhow
      (Value.Tame leeway) := by
  apply Exec.tends_bind _ evaluated
  intro value tame
  cases value.task? with
  | some task => exact Exec.tends_here (engine.tends_await prudent awaits task)
  | none => exact Exec.tends_pure value tame

theorem prudent_await : (runAwait engine (.await name position operand) frame).Prudent leeway
    (.await name position operand) frame := by
  constructor <;> intro fits
  · simp only [Node.still, Bool.and_eq_true] at fits
    obtain ⟨⟨⟨risks, awaits⟩, _⟩, operandStill⟩ := fits
    exact Exec.tends_risked risks (tends_await engine prudent name position frame operand awaits
      (Exec.tends_anyhow (prudent.still operand frame operandStill)))
  · simp only [Node.tolerant, Bool.and_eq_true] at fits
    obtain ⟨⟨awaits, _⟩, operandTolerant⟩ := fits
    exact tends_await engine prudent name position frame operand awaits
      (prudent.tolerant operand frame operandTolerant)

end Await

section Bracket
include prudent

theorem prudent_group (inner : Node) : (runBracket engine (.group name position inner) frame).Prudent leeway
    (.group name position inner) frame := by
  constructor <;> intro fits
  · simp only [Node.still, Bool.and_eq_true] at fits
    exact prudent.still inner frame fits.2
  · simp only [Node.tolerant, Bool.and_eq_true] at fits
    exact prudent.tolerant inner frame fits.2

theorem tends_bracket_call (callee : Node) (arguments : List Node) (calleeStill : callee.still leeway = true)
    (argumentsFit : Node.tolerantArguments leeway arguments = true) :
    (runBracket engine (.call name position callee arguments) frame).Tends leeway frame leeway.Operates Anyhow
      (Value.Tame leeway) := by
  have plainly : Exec.Tends leeway frame leeway.Operates Anyhow (Value.Tame leeway) (do
      let function ← engine.evaluate callee frame
      engine.call function function arguments frame) :=
    Exec.tends_bind _ (prudent.still callee frame calleeStill) fun function tame =>
      engine.tends_call prudent frame function function arguments tame tame argumentsFit
  cases callee with
  | access label place object member =>
    simp only [Node.still, Bool.and_eq_true] at calleeStill
    apply Exec.tends_bind _ (prudent.still object frame calleeStill.2)
    intro target targetTame
    apply Exec.tends_bind _ (Exec.tends_member_of target member targetTame)
    exact fun function tame =>
      engine.tends_call prudent frame target function arguments targetTame tame argumentsFit
  | _ => exact plainly

theorem prudent_call (callee : Node) (arguments : List Node) :
    (runBracket engine (.call name position callee arguments) frame).Prudent leeway
      (.call name position callee arguments) frame := by
  constructor <;> intro fits
  · simp only [Node.still, Bool.and_eq_true] at fits
    obtain ⟨⟨⟨risks, _⟩, calleeStill⟩, argumentsStill⟩ := fits
    exact Exec.tends_risked risks (tends_bracket_call engine prudent name position frame callee arguments calleeStill
      (Node.still_arguments leeway arguments ((Node.all_still_iff leeway arguments).mp argumentsStill)))
  · simp only [Node.tolerant, Bool.and_eq_true] at fits
    exact tends_bracket_call engine prudent name position frame callee arguments fits.1.2 fits.2

end Bracket

section Array
include prudent

theorem tends_items (items : List Node) (fits : Node.tolerantItems leeway items = true) :
    (Exec.collect (fun item => engine.evaluate item frame) items).Tends leeway frame leeway.Operates Anyhow
      fun values => ∀ value ∈ values, value.Tame leeway := by
  induction items with
  | nil => exact Exec.tends_anyhow (Exec.tends_pure [] fun _ member => by cases member)
  | cons item rest ih =>
    have gathered : ∀ value : Value, value.Tame leeway → ∀ values : List Value, (∀ value ∈ values, value.Tame leeway) →
        (pure (value :: values) : Exec (List Value)).Tends leeway frame Anyhow Anyhow
          fun values => ∀ value ∈ values, value.Tame leeway := fun value tame values all =>
      Exec.tends_pure _ (List.forall_mem_cons.mpr ⟨tame, all⟩)
    simp only [Node.tolerantItems, Bool.or_eq_true, Bool.and_eq_true] at fits
    rcases fits with ⟨itemStill, more⟩ | ⟨itemTolerant, literals⟩
    · apply Exec.tends_bind _ (prudent.still item frame itemStill)
      exact fun value tame => Exec.tends_bind _ (ih more) (gathered value tame)
    · have rest : (Exec.collect (fun item => engine.evaluate item frame) rest).Tends leeway frame Anyhow Anyhow
          fun values => ∀ value ∈ values, value.Tame leeway := Exec.tends_collect _ rest fun item member =>
        prudent.literal item frame Anyhow (List.all_eq_true.mp literals item member)
      apply Exec.tends_bind _ (prudent.tolerant item frame itemTolerant)
      exact fun value tame => Exec.tends_bind _ rest (gathered value tame)

theorem prudent_array (items : List Node) : (runArray engine (.array name position items) frame).Prudent leeway
    (.array name position items) frame := by
  constructor <;> intro fits
  · simp only [Node.still, Bool.and_eq_true] at fits
    have all := (Node.all_still_iff leeway items).mp fits.2
    have values : (Exec.collect (fun item => engine.evaluate item frame) items).Tends leeway frame leeway.Operates
        leeway.Operates fun values => ∀ value ∈ values, value.Tame leeway :=
      Exec.tends_collect _ items fun item member => prudent.still item frame (all item member)
    exact Exec.tends_bind _ values fun items tame => Exec.tends_array items tame
  · simp only [Node.tolerant, Bool.and_eq_true] at fits
    exact Exec.tends_bind _ (tends_items engine prudent frame items fits.2) fun items tame => Exec.tends_array items tame

theorem prudent_index (object place : Node) : (runArray engine (.index name position object place) frame).Prudent leeway
    (.index name position object place) frame := by
  have indexed : object.still leeway = true → place.still leeway = true →
      (runArray engine (.index name position object place) frame).Tends leeway frame leeway.Operates leeway.Operates
        (Value.Tame leeway) := by
    intro objectStill placeStill
    apply Exec.tends_bind _ (prudent.still object frame objectStill)
    intro target tame
    apply Exec.tends_bind _ (prudent.still place frame placeStill)
    exact fun place _ => Exec.tends_item_at target place tame
  constructor <;> intro fits
  · simp only [Node.still, Bool.and_eq_true] at fits
    exact indexed fits.1.2 fits.2
  · simp only [Node.tolerant, Bool.and_eq_true] at fits
    exact Exec.tends_anyhow (indexed fits.1.2 fits.2)

theorem prudent_access (object : Node) (member : String) :
    (runAccess engine (.access name position object member) frame).Prudent leeway
      (.access name position object member) frame := by
  have found : object.still leeway = true →
      (runAccess engine (.access name position object member) frame).Tends leeway frame leeway.Operates leeway.Operates
        (Value.Tame leeway) := fun objectStill =>
    Exec.tends_bind _ (prudent.still object frame objectStill) fun value tame => Exec.tends_member_of value member tame
  constructor <;> intro fits
  · simp only [Node.still, Bool.and_eq_true] at fits
    exact found fits.2
  · simp only [Node.tolerant, Bool.and_eq_true] at fits
    exact Exec.tends_anyhow (found fits.2)

end Array

section Unary
variable (operand : Node)
include prudent

theorem tends_not
    (evaluated : (engine.evaluate operand frame).Tends leeway frame leeway.Operates last (Value.Tame leeway)) :
    (runUnary engine (.unary name position .not operand) frame).Tends leeway frame leeway.Operates last
      (Value.Tame leeway) := by
  apply Exec.tends_bind _ evaluated
  intro value tame
  apply Exec.tends_bind _ (engine.tends_truthy prudent frame value tame)
  exact fun truth _ => Exec.tends_better (Exec.tends_flag _) fun _ fine => fine.1

theorem tends_negate (still : operand.still leeway = true) :
    (runUnary engine (.unary name position .negate operand) frame).Tends leeway frame leeway.Operates leeway.Operates
      (Value.Tame leeway) := by
  apply Exec.tends_bind _ (prudent.still operand frame still)
  intro value tame
  simp only
  cases value.number? with
  | some x => exact Exec.tends_number _
  | none => exact Exec.tends_fail_named value .notNegatable fun _ => rfl

theorem prudent_unary (op : UnaryOp) : (runUnary engine (.unary name position op operand) frame).Prudent leeway
    (.unary name position op operand) frame := by
  cases op with
  | not =>
    constructor <;> intro fits
    · simp only [Node.still, Bool.and_eq_true] at fits
      exact tends_not engine prudent name position frame operand (prudent.still operand frame fits.2)
    · simp only [Node.tolerant, Bool.and_eq_true] at fits
      exact tends_not engine prudent name position frame operand (prudent.tolerant operand frame fits.2)
  | negate =>
    constructor <;> intro fits
    · simp only [Node.still, Bool.and_eq_true] at fits
      exact tends_negate engine prudent name position frame operand fits.2
    · simp only [Node.tolerant, Bool.and_eq_true] at fits
      exact Exec.tends_anyhow (tends_negate engine prudent name position frame operand fits.2)

end Unary

section Binary
variable (op : BinaryOp) (left right : Node)

section Operands
variable (first : (engine.evaluate left frame).Tends leeway frame leeway.Operates middle (Value.Tame leeway))
  (second : (engine.evaluate right frame).Tends leeway frame middle last (Value.Tame leeway))
include first second

include prudent in
theorem tends_deciding (deciding : op = .both ∨ op = .either) (ends : ∀ halted, middle halted → last halted) :
    (runBinary engine (.binary name position op left right) frame).Tends leeway frame leeway.Operates last
      (Value.Tame leeway) := by
  apply Exec.tends_bind _ first
  intro value tame
  have decided : (pure value : Exec Value).Tends leeway frame middle last (Value.Tame leeway) :=
    Exec.tends_weaken (Exec.tends_pure value tame) (fun _ begun => begun) ends fun _ fine => fine
  rcases deciding with rfl | rfl <;> apply Exec.tends_bind _ (engine.tends_truthy prudent frame value tame) <;>
    intro truth _ <;> cases truth
  · exact decided
  · exact second
  · exact second
  · exact decided

theorem tends_strict (strict : op ≠ .both ∧ op ≠ .either)
    (operates : ∀ left right : Value, left.Tame leeway → right.Tame leeway →
      (Exec.operate op left right).Tends leeway frame last last (Value.Tame leeway)) :
    (runBinary engine (.binary name position op left right) frame).Tends leeway frame leeway.Operates last
      (Value.Tame leeway) := by
  apply Exec.tends_bind _ first
  intro value tame
  have applied : Exec.Tends leeway frame middle last (Value.Tame leeway) (do
      let right ← engine.evaluate right frame
      Exec.operate op value right) :=
    Exec.tends_bind _ second fun later laterTame => operates value later tame laterTame
  cases op with
  | both => exact absurd rfl strict.1
  | either => exact absurd rfl strict.2
  | _ => exact applied

end Operands

include prudent

-- The operands of an operator that takes any two values: a halt is met by the later one, or then by a literal.
theorem tolerant_operands
    (fits : left.still leeway = true ∧ right.tolerant leeway = true ∨
      left.tolerant leeway = true ∧ right.literal = true) :
    ∃ middle, (engine.evaluate left frame).Tends leeway frame leeway.Operates middle (Value.Tame leeway) ∧
      (engine.evaluate right frame).Tends leeway frame middle Anyhow (Value.Tame leeway) := by
  rcases fits with ⟨leftStill, rightTolerant⟩ | ⟨leftTolerant, rightLiteral⟩
  · exact ⟨leeway.Operates, prudent.still left frame leftStill, prudent.tolerant right frame rightTolerant⟩
  · exact ⟨Anyhow, prudent.tolerant left frame leftTolerant, prudent.literal right frame Anyhow rightLiteral⟩

theorem still_binary (leftStill : left.still leeway = true) (rightStill : right.still leeway = true) :
    (runBinary engine (.binary name position op left right) frame).Tends leeway frame leeway.Operates leeway.Operates
      (Value.Tame leeway) := by
  have first := prudent.still left frame leftStill
  have second := prudent.still right frame rightStill
  by_cases deciding : op = .both ∨ op = .either
  · exact tends_deciding engine prudent name position frame op left right first second deciding fun _ begun => begun
  · exact tends_strict engine name position frame op left right first second (not_or.mp deciding)
      fun left right => Exec.tends_operate op left right

theorem tolerant_binary (fits : (Node.binary name position op left right).tolerant leeway = true) :
    (runBinary engine (.binary name position op left right) frame).Tends leeway frame leeway.Operates Anyhow
      (Value.Tame leeway) := by
  simp only [Node.tolerant, Bool.and_eq_true] at fits
  have lenient : op = .both ∨ op = .either ∨ op = .equal ∨ op = .notEqual →
      left.still leeway = true ∧ right.tolerant leeway = true ∨
        left.tolerant leeway = true ∧ right.literal = true := by
    rintro (rfl | rfl | rfl | rfl) <;> simpa using fits.2
  by_cases deciding : op = .both ∨ op = .either
  · obtain ⟨middle, first, second⟩ := tolerant_operands engine prudent frame left right
      (lenient (deciding.elim .inl fun either => .inr (.inl either)))
    exact tends_deciding engine prudent name position frame op left right first second deciding fun _ _ => trivial
  · by_cases compares : op = .equal ∨ op = .notEqual
    · obtain ⟨middle, first, second⟩ := tolerant_operands engine prudent frame left right
        (lenient (.inr (.inr compares)))
      exact tends_strict engine name position frame op left right first second (not_or.mp deciding)
        fun left right _ _ => Exec.tends_compare op compares left right
    · have both : left.still leeway = true ∧ right.still leeway = true := by
        cases op <;> first | simpa using fits.2 | simp at deciding compares
      exact Exec.tends_anyhow (still_binary engine prudent name position frame op left right both.1 both.2)

theorem prudent_binary : (runBinary engine (.binary name position op left right) frame).Prudent leeway
    (.binary name position op left right) frame := by
  refine ⟨fun fits => ?_, tolerant_binary engine prudent name position frame op left right⟩
  simp only [Node.still, Bool.and_eq_true] at fits
  exact still_binary engine prudent name position frame op left right fits.1.2 fits.2

end Binary

theorem tends_assign (target : String) (value : Node)
    (evaluated : (engine.evaluate value frame).Tends leeway frame leeway.Operates last (Value.Tame leeway)) :
    (runAssign engine (.assign name position target value) frame).Tends leeway frame leeway.Operates last
      (Value.Tame leeway) := by
  apply Exec.tends_bind _ evaluated
  intro value tame
  exact Exec.tends_bind _ (Exec.tends_assign target value tame) fun _ _ => Exec.tends_pure value tame

include prudent in
theorem prudent_assign (target : String) (value : Node) :
    (runAssign engine (.assign name position target value) frame).Prudent leeway
      (.assign name position target value) frame := by
  constructor <;> intro fits
  · simp only [Node.still, Bool.and_eq_true] at fits
    exact tends_assign engine name position frame target value (prudent.still value frame fits.2)
  · simp only [Node.tolerant, Bool.and_eq_true] at fits
    exact tends_assign engine name position frame target value (prudent.tolerant value frame fits.2)

end ExpressionRule

namespace StatementRule
variable {leeway : Leeway} (engine : Engine) (keyword : String) (position : Position) (frame : FrameId)

theorem prudent_function (name : String) (parameters : List String) (isAsync : Bool) (body : List Node)
    (fits : Node.allPrudent leeway true body = true) :
    (runFunction engine (.function keyword position name parameters isAsync body) frame).Tends leeway frame
      leeway.Operates Anyhow fun _ => True := by
  have ordinary : Function.Ordinary ⟨name, .named parameters, .script body, isAsync⟩ := fun _ native => by
    cases native
  have bodyFits : Function.Prudent leeway ⟨name, .named parameters, .script body, isAsync⟩ := fun _ same => by
    cases same
    exact fits
  have made : (Exec.function ⟨name, .named parameters, .script body, isAsync⟩).Tends leeway frame leeway.Operates
      leeway.Operates (Value.Tame leeway) := Exec.tends_function _ ordinary bodyFits
  apply Exec.tends_bind _ made
  intro function tame
  apply Exec.tends_bind _ (Exec.tends_set_variable name function tame)
  exact fun _ _ => Exec.tends_anyhow (Exec.tends_pure none trivial)

variable (prudent : engine.Prudent leeway)
include prudent

theorem prudent_return (value : Option Node)
    (fits : (Node.giveBack keyword position value).prudent leeway frame.isInner = true) :
    (runReturn engine (.giveBack keyword position value) frame).Tends leeway frame leeway.Operates Anyhow
      fun _ => True := by
  have gives : ∀ value : Value, value.Tame leeway → Exec.Tends leeway frame leeway.Operates Anyhow (fun _ => True)
      (do Exec.setReturn frame value; return none : Exec (Option Value)) := fun value tame =>
    Exec.tends_bind _ (Exec.tends_set_return value tame) fun _ _ => Exec.tends_anyhow (Exec.tends_pure none trivial)
  have givesInside : frame.isInner = true → ∀ value : Value, value.Tame leeway →
      Exec.Tends leeway frame Anyhow Anyhow (fun _ => True)
        (do Exec.setReturn frame value; return none : Exec (Option Value)) := fun inside value tame =>
    Exec.tends_bind _ (Exec.tends_set_return_inner inside value tame) fun _ _ => Exec.tends_pure none trivial
  cases value with
  | none => exact Exec.tends_bind _ Exec.tends_void gives
  | some value =>
    simp only [Node.prudent, Bool.or_eq_true, Bool.and_eq_true] at fits
    rcases fits.2 with still | ⟨inside, tolerant⟩
    · exact Exec.tends_bind _ (prudent.still value frame still) gives
    · exact Exec.tends_bind _ (prudent.tolerant value frame tolerant) (givesInside inside)

theorem prudent_nested (lines : List Node) (fits : Node.allPrudent leeway frame.isInner lines = true) :
    Exec.Tends leeway frame Anyhow Anyhow (fun _ => True)
      (do let _ ← engine.runBlock lines frame; return none : Exec (Option Value)) :=
  Exec.tends_bind _ (engine.tends_run_block prudent lines frame fits) fun _ _ => Exec.tends_pure none trivial

theorem prudent_if (condition : Node) (whenTrue : List Node) (whenFalse : Option (List Node))
    (fits : (Node.branch keyword position condition whenTrue whenFalse).prudent leeway frame.isInner = true) :
    (runIf engine (.branch keyword position condition whenTrue whenFalse) frame).Tends leeway frame leeway.Operates
      Anyhow fun _ => True := by
  obtain ⟨conditionFits, trueFits, falseFits⟩ : condition.tolerant leeway = true ∧
      Node.allPrudent leeway frame.isInner whenTrue = true ∧
      ∀ lines, whenFalse = some lines → Node.allPrudent leeway frame.isInner lines = true := by
    cases whenFalse <;> simp_all [Node.prudent]
  apply Exec.tends_bind _ (prudent.tolerant condition frame conditionFits)
  intro value tame
  apply Exec.tends_bind _ (engine.tends_truthy prudent frame value tame)
  intro truth _
  split
  · exact prudent_nested engine frame prudent whenTrue trueFits
  · cases whenFalse with
    | some lines => exact prudent_nested engine frame prudent lines (falseFits lines rfl)
    | none => exact Exec.tends_pure none trivial

-- The condition is not looked at any more once the machine is halted.
theorem prudent_loop_step (condition : Node) (body : List Node) (conditionFits : condition.tolerant leeway = true)
    (bodyFits : Node.allPrudent leeway frame.isInner body = true) :
    (loopStep engine condition body frame).Tends leeway frame Anyhow Anyhow
      (Sum.elim (fun _ => True) fun _ => True) := by
  intro stage fit held _
  have asks : (Exec.isUnwinding frame).Tends leeway frame Anyhow Anyhow fun _ => True := Exec.tends_is_unwinding
  refine stage.bears_bind fit _ (asks stage fit held trivial) ?_
  intro unwinding machine asked reaches machineFit _ _
  have machineHeld := (stage.firm_put machine reaches.registered frame).mpr held
  cases unwinding with
  | true => exact Exec.tends_pure _ trivial _ machineFit machineHeld trivial
  | false =>
    have round : Exec.Tends leeway frame leeway.Operates Anyhow (Sum.elim (fun _ => True) fun _ => True) (do
        let value ← engine.evaluate condition frame
        if !(← engine.truthy value frame) then return .inr none
        let _ ← engine.runBlock body frame
        return .inl () : Exec (Unit ⊕ Option Value)) := by
      apply Exec.tends_bind _ (prudent.tolerant condition frame conditionFits)
      intro value tame
      apply Exec.tends_bind _ (engine.tends_truthy prudent frame value tame)
      intro truth _
      split
      · exact Exec.tends_pure _ trivial
      · exact Exec.tends_bind _ (engine.tends_run_block prudent body frame bodyFits) fun _ _ => Exec.tends_pure _ trivial
    exact round _ machineFit machineHeld
      (Exec.running_operates _ (Exec.unwinding_running stage.machine machine asked))

theorem prudent_while (condition : Node) (body : List Node)
    (fits : (Node.loop keyword position condition body).prudent leeway frame.isInner = true) :
    (runWhile engine (.loop keyword position condition body) frame).Tends leeway frame Anyhow Anyhow
      fun _ => True := by
  simp only [Node.prudent, Bool.and_eq_true] at fits
  exact Exec.tends_iterate (fun _ => loopStep engine condition body frame)
    (fun _ => prudent_loop_step engine frame prudent condition body fits.1.2 fits.2) (fun _ _ _ _ _ => trivial) _ ()

end StatementRule

namespace RuleSet
variable {leeway : Leeway}

section Dispatch
variable (engine : Engine) (node : Node) (frame : FrameId) (position : Position)

theorem prudent_expression (run : Engine → Node → FrameId → Exec Value)
    (head : node.head = .expression node.label position) (found : standard.expressionRun? node.shape = some run)
    (prudent : (run engine node frame).Prudent leeway node frame) :
    (standard.evaluate engine node frame).Prudent leeway node frame := by
  have placed : node.label = node.shape →
      standard.evaluate engine node frame = (run engine node frame).mapFailure (·.orPosition (some position)) := by
    intro named
    unfold evaluate
    rw [head, named]
    simp only [found]
  constructor <;> intro fits
  · rw [placed (node.still_named leeway fits)]
    exact Exec.tends_map_failure _ (Failure.placed_cause (some position)) (Failure.cause_placed (some position))
      (prudent.still fits)
  · rw [placed (node.tolerant_named leeway fits)]
    exact Exec.tends_map_failure _ (Failure.placed_cause (some position)) (Failure.cause_placed (some position))
      (prudent.tolerant fits)

theorem tends_statement (run : Engine → Node → FrameId → Exec (Option Value)) {start last : Bool → Prop}
    (head : node.head = .statement node.label position) (named : node.label = node.shape)
    (found : standard.statementRun? node.shape = some run)
    (tends : (run engine node frame).Tends leeway frame start last fun _ => True) :
    (standard.execute engine node frame).Tends leeway frame start last fun _ => True := by
  have same : standard.execute engine node frame = run engine node frame := by
    unfold execute
    rw [head, named]
    simp only [found]
  exact same ▸ tends

end Dispatch

variable (engine : Engine) (prudent : engine.Prudent leeway) (node : Node) (frame : FrameId)

theorem tends_evaluate_literal (level : Bool → Prop) (literal : node.literal = true) :
    (standard.evaluate engine node frame).Tends leeway frame level level (Value.Tame leeway) := by
  cases node with
  | number value => exact Exec.tends_number value
  | text value => exact Exec.tends_better (Exec.tends_text value) fun _ fine => fine.1
  | void => exact Exec.tends_void
  | _ => simp [Node.literal] at literal

include prudent

theorem prudent_evaluate : (standard.evaluate engine node frame).Prudent leeway node frame := by
  have plainly : (standard.evaluate engine node frame).Tends leeway frame leeway.Operates leeway.Operates
      (Value.Tame leeway) → (standard.evaluate engine node frame).Prudent leeway node frame :=
    fun tends => ⟨fun _ => tends, fun _ => Exec.tends_anyhow tends⟩
  cases node with
  | number | text | void => exact plainly (tends_evaluate_literal engine _ frame leeway.Operates rfl)
  | reference name position =>
    exact plainly (Exec.tends_map_failure _ (Failure.placed_cause (some position))
      (Failure.cause_placed (some position)) (Exec.tends_look_up name))
  | binary name position op left right =>
    exact prudent_expression engine _ frame position _ rfl rfl
      (ExpressionRule.prudent_binary engine prudent name position frame op left right)
  | unary name position op operand =>
    exact prudent_expression engine _ frame position _ rfl rfl
      (ExpressionRule.prudent_unary engine prudent name position frame operand op)
  | group name position inner =>
    exact prudent_expression engine _ frame position _ rfl rfl
      (ExpressionRule.prudent_group engine prudent name position frame inner)
  | call name position callee arguments =>
    exact prudent_expression engine _ frame position _ rfl rfl
      (ExpressionRule.prudent_call engine prudent name position frame callee arguments)
  | assign name position target value =>
    exact prudent_expression engine _ frame position _ rfl rfl
      (ExpressionRule.prudent_assign engine prudent name position frame target value)
  | access name position object member =>
    exact prudent_expression engine _ frame position _ rfl rfl
      (ExpressionRule.prudent_access engine prudent name position frame object member)
  | array name position items =>
    exact prudent_expression engine _ frame position _ rfl rfl
      (ExpressionRule.prudent_array engine prudent name position frame items)
  | index name position object place =>
    exact prudent_expression engine _ frame position _ rfl rfl
      (ExpressionRule.prudent_index engine prudent name position frame object place)
  | await name position operand =>
    exact prudent_expression engine _ frame position _ rfl rfl
      (ExpressionRule.prudent_await engine prudent name position frame operand)
  | function | giveBack | branch | loop | block =>
    exact ⟨fun fits => by simp [Node.still] at fits, fun fits => by simp [Node.tolerant] at fits⟩

theorem tends_execute (fits : node.prudent leeway frame.isInner = true) :
    (standard.execute engine node frame).Tends leeway frame leeway.Operates Anyhow fun _ => True := by
  have named := node.prudent_named leeway frame.isInner fits
  have valued : node.tolerant leeway = true →
      (some <$> standard.evaluate engine node frame).Tends leeway frame leeway.Operates Anyhow fun _ => True :=
    fun tolerant => Exec.tends_map some ((prudent_evaluate engine prudent node frame).tolerant tolerant) fun _ _ => trivial
  cases node with
  | function keyword position name parameters isAsync body =>
    simp only [Node.prudent, Bool.and_eq_true] at fits
    exact tends_statement engine _ frame position _ rfl named rfl
      (StatementRule.prudent_function engine keyword position frame name parameters isAsync body fits.2)
  | giveBack keyword position value =>
    exact tends_statement engine _ frame position _ rfl named rfl
      (StatementRule.prudent_return engine keyword position frame prudent value fits)
  | branch keyword position condition whenTrue whenFalse =>
    exact tends_statement engine _ frame position _ rfl named rfl
      (StatementRule.prudent_if engine keyword position frame prudent condition whenTrue whenFalse fits)
  | loop keyword position condition body =>
    exact tends_statement engine _ frame position _ rfl named rfl
      (Exec.tends_early (StatementRule.prudent_while engine keyword position frame prudent condition body fits))
  | block keyword position body =>
    simp only [Node.prudent, Bool.and_eq_true] at fits
    exact tends_statement engine _ frame position _ rfl named rfl
      (Exec.tends_early (StatementRule.prudent_nested engine frame prudent body fits.2))
  | _ => exact valued (by simpa [Node.prudent] using fits)

omit prudent in
theorem prudent_engine (leeway : Leeway) (fuel : Nat) : (standard.engine fuel).Prudent leeway := by
  induction fuel with
  | zero => constructor <;> intros <;> first | exact lawful_engine 0 | exact Exec.tends_exhausted
  | succ fuel ih =>
    exact {
      lawful := lawful_engine (fuel + 1)
      literal := tends_evaluate_literal (standard.engine fuel)
      still := fun node frame => (prudent_evaluate (standard.engine fuel) ih node frame).still
      tolerant := fun node frame => (prudent_evaluate (standard.engine fuel) ih node frame).tolerant
      execute := tends_execute (standard.engine fuel) ih
      quiet := fun code invocation level quiet tame =>
        (standard.engine fuel).tends_quiet ih code invocation quiet tame
      native := (standard.engine fuel).tends_run_builtin ih
      body := (standard.engine fuel).tends_run_body ih }

end RuleSet

end CoopScript
