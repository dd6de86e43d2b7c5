import CoopScript.Value.Equality
set_option autoImplicit false
namespace CoopScript.Number
open Float.Model

-- What equality looks at: whether there is a number, and its sign and size unless it is zero.
def essence : UnpackedFloat → Option (Option (UnpackedFloat.Sign × Option (Nat × Int)))
  | .notANumber => none
  | .zero _ => some none
  | .infinity sign => some (some (sign, none))
  | .finite sign mantissa exponent _ => some (some (sign, some (mantissa, exponent)))

theorem same_size (exponent power : Int) (mantissa another : Nat) :
    (some ((compare exponent power).then (compare mantissa another)) == some Ordering.eq) = true ↔
      (mantissa, exponent) = (another, power) := by
  simp [Ordering.then_eq_eq, and_comm]

theorem same_size_below (exponent power : Int) (mantissa another : Nat) :
    (some ((compare exponent power).then (compare mantissa another)).swap == some Ordering.eq) = true ↔
      (mantissa, exponent) = (another, power) := by
  simp [Ordering.then_eq_eq, and_comm]

section Cases
variable (left right : UnpackedFloat) {one other : Option (UnpackedFloat.Sign × Option (Nat × Int))}

theorem both_known (first : essence left = some one) (second : essence right = some other)
    (exact : left.beq right = true ↔ one = other) :
    left.beq right = true ↔ ∃ what, essence left = some what ∧ essence right = some what := by
  simp [first, second, exact, eq_comm]

theorem both_apart (first : essence left = some one) (second : essence right = some other) (apart : one ≠ other)
    (unlike : left.beq right = false) :
    left.beq right = true ↔ ∃ what, essence left = some what ∧ essence right = some what :=
  both_known left right first second (iff_of_false (by simp [unlike]) apart)

end Cases

theorem beq_essence (left right : UnpackedFloat) :
    left.beq right = true ↔ ∃ what, essence left = some what ∧ essence right = some what := by
  cases left with
  | notANumber => exact iff_of_false Bool.false_ne_true fun ⟨_, one, _⟩ => by cases one
  | zero sign =>
    cases right with
    | notANumber => exact iff_of_false Bool.false_ne_true fun ⟨_, _, other⟩ => by cases other
    | zero other => exact both_known _ _ rfl rfl (iff_of_true rfl rfl)
    | infinity other | finite other => cases other <;> exact both_apart _ _ rfl rfl (by simp) rfl
  | infinity sign =>
    cases right with
    | notANumber => exact iff_of_false Bool.false_ne_true fun ⟨_, _, other⟩ => by cases other
    | infinity other =>
      cases sign with
      | positive =>
        cases other with
        | positive => exact both_known _ _ rfl rfl (iff_of_true rfl rfl)
        | negative => exact both_apart _ _ rfl rfl (by simp) rfl
      | negative =>
        cases other with
        | positive => exact both_apart _ _ rfl rfl (by simp) rfl
        | negative => exact both_known _ _ rfl rfl (iff_of_true rfl rfl)
    | zero | finite => cases sign <;> exact both_apart _ _ rfl rfl (by simp) rfl
  | finite sign mantissa exponent positive =>
    cases right with
    | notANumber => exact iff_of_false Bool.false_ne_true fun ⟨_, _, other⟩ => by cases other
    | zero => cases sign <;> exact both_apart _ _ rfl rfl (by simp) rfl
    | infinity other => cases sign <;> cases other <;> exact both_apart _ _ rfl rfl (by simp) rfl
    | finite other another power large =>
      cases sign with
      | positive =>
        cases other with
        | positive => exact both_known _ _ rfl rfl ((same_size exponent power mantissa another).trans (by simp))
        | negative => exact both_apart _ _ rfl rfl (by simp) rfl
      | negative =>
        cases other with
        | positive => exact both_apart _ _ rfl rfl (by simp) rfl
        | negative => exact both_known _ _ rfl rfl ((same_size_below exponent power mantissa another).trans (by simp))

theorem beq_iff (left right : Float) : (left == right) = true ↔ ∃ what,
    essence (.unpack .binary64 left.toModel.toBits.toBitVec) = some what ∧
      essence (.unpack .binary64 right.toModel.toBits.toBitVec) = some what :=
  beq_essence _ _

theorem beq_symm (left right : Float) (same : (left == right) = true) : (right == left) = true := by
  obtain ⟨what, one, other⟩ := (beq_iff left right).mp same
  exact (beq_iff right left).mpr ⟨what, other, one⟩

theorem beq_trans (left middle right : Float) (first : (left == middle) = true) (second : (middle == right) = true) :
    (left == right) = true := by
  obtain ⟨what, one, between⟩ := (beq_iff left middle).mp first
  obtain ⟨also, between', other⟩ := (beq_iff middle right).mp second
  obtain rfl := Option.some.inj (between.symm.trans between')
  exact (beq_iff left right).mpr ⟨what, one, other⟩

end CoopScript.Number
