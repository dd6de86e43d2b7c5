import CoopScript.Class.Intrinsic
import CoopScript.Proofs.Value.Number

/-!
Arrays that two values share. Equality takes an array to be equal to itself without a look at its items; here it is
compared with an equality that looks. The two differ just where shared arrays hold what is not equal to itself: numbers
that are none, and objects without data. Whichever arrays are shared, equality is symmetric and transitive.
-/
set_option autoImplicit false
namespace CoopScript.Value

section Definitions

mutual

-- Equality that always compares arrays item by item.
def alike : Value → Value → Bool
  | ⟨leftClass, _, _, leftData⟩, ⟨rightClass, _, _, rightData⟩ =>
    leftClass == rightClass && alikeData leftData rightData

def alikeData : Data Value → Data Value → Bool
  | .number left, .number right => left == right
  | .text left, .text right => left == right
  | .flag left, .flag right => left == right
  | .array _ leftItems, .array _ rightItems => alikeItems leftItems rightItems
  | .function left _, .function right _ => left == right
  | .promise left, .promise right => left == right
  | .void, .void => true
  | _, _ => false

def alikeItems : List Value → List Value → Bool
  | [], [] => true
  | left :: leftRest, right :: rightRest => alike left right && alikeItems leftRest rightRest
  | _, _ => false

end

mutual

-- No object without data is in the value, and no number that is not equal to itself.
def steady : Value → Bool
  | ⟨_, _, _, data⟩ => steadyData data

def steadyData : Data Value → Bool
  | .none => false
  | .number value => value == value
  | .array _ items => steadyItems items
  | _ => true

def steadyItems : List Value → Bool
  | [] => true
  | item :: rest => steady item && steadyItems rest

end

mutual

-- Every array that both values have at the same place is steady.
def sharesSteady : Value → Value → Bool
  | ⟨_, _, _, leftData⟩, ⟨_, _, _, rightData⟩ => sharesSteadyData leftData rightData

def sharesSteadyData : Data Value → Data Value → Bool
  | .array left leftItems, .array right rightItems =>
    if left = right then steadyItems leftItems else sharesSteadyItems leftItems rightItems
  | _, _ => true

def sharesSteadyItems : List Value → List Value → Bool
  | left :: leftRest, right :: rightRest => sharesSteady left right && sharesSteadyItems leftRest rightRest
  | _, _ => true

end

mutual

-- What the arrays of the value are by their identities. An array is never changed, and its copies keep its identity,
-- so that one identity stands for the same items everywhere.
def Resolves (arrays : Nat → List Value) : Value → Prop
  | ⟨_, _, _, data⟩ => ResolvesData arrays data

def ResolvesData (arrays : Nat → List Value) : Data Value → Prop
  | .array identity items => arrays identity = items ∧ ResolvesItems arrays items
  | _ => True

def ResolvesItems (arrays : Nat → List Value) : List Value → Prop
  | [] => True
  | item :: rest => Resolves arrays item ∧ ResolvesItems arrays rest

end

end Definitions

section Itself

mutual

theorem alike_itself : (value : Value) → value.alike value = value.steady
  | ⟨_, _, _, data⟩ => by simp only [alike, steady, beq_self_eq_true, Bool.true_and, alike_data_itself data]

theorem alike_data_itself : (data : Data Value) → alikeData data data = steadyData data
  | .array _ items => by simp only [alikeData, steadyData, alike_items_itself items]
  | .none | .void | .number _ | .text _ | .flag _ | .function _ _ | .promise _ => by simp [alikeData, steadyData]

theorem alike_items_itself : (items : List Value) → alikeItems items items = steadyItems items
  | [] => rfl
  | item :: rest => by simp only [alikeItems, steadyItems, alike_itself item, alike_items_itself rest]

end

end Itself

section Shared
variable (arrays : Nat → List Value)

mutual

theorem alike_exact : (left right : Value) → left.Resolves arrays → right.Resolves arrays →
    left.alike right = (left.equals right && left.sharesSteady right)
  | ⟨leftClass, _, _, leftData⟩, ⟨rightClass, _, _, rightData⟩, leftResolves, rightResolves => by
    simp only [alike, equals, sharesSteady, alike_data_exact leftData rightData leftResolves rightResolves, Bool.and_assoc]

theorem alike_data_exact : (left right : Data Value) → ResolvesData arrays left → ResolvesData arrays right →
    alikeData left right = (equalData left right && sharesSteadyData left right)
  | .array left leftItems, .array right rightItems, ⟨leftKnown, leftResolves⟩, ⟨rightKnown, rightResolves⟩ => by
    simp only [alikeData, equalData, sharesSteadyData]
    by_cases same : left = right
    · subst same
      obtain rfl : leftItems = rightItems := leftKnown.symm.trans rightKnown
      simp [alike_items_itself]
    · have other : (left == right) = false := beq_eq_false_iff_ne.mpr same
      rw [other, Bool.false_or, if_neg same, alike_items_exact leftItems rightItems leftResolves rightResolves]
  | .none, right, _, _ | .void, right, _, _ | .number _, right, _, _ | .text _, right, _, _ | .flag _, right, _, _
  | .function .., right, _, _ | .promise _, right, _, _ => by
    cases right <;> simp [alikeData, equalData, sharesSteadyData]
  | .array .., .none, _, _ | .array .., .void, _, _ | .array .., .number _, _, _ | .array .., .text _, _, _
  | .array .., .flag _, _, _ | .array .., .function .., _, _ | .array .., .promise _, _, _ => by
    simp only [alikeData, equalData, Bool.false_and]

theorem alike_items_exact : (left right : List Value) → ResolvesItems arrays left → ResolvesItems arrays right →
    alikeItems left right = (equalItems left right && sharesSteadyItems left right)
  | [], [], _, _ => rfl
  | [], _ :: _, _, _ | _ :: _, [], _, _ => by simp only [alikeItems, equalItems, Bool.false_and]
  | left :: leftRest, right :: rightRest, ⟨leftResolves, leftRestResolves⟩, ⟨rightResolves, rightRestResolves⟩ => by
    rw [alikeItems, alike_exact left right leftResolves rightResolves,
      alike_items_exact leftRest rightRest leftRestResolves rightRestResolves, equalItems, sharesSteadyItems]
    ac_rfl

end

end Shared

/-- The two equalities differ in one way only: values with shared arrays that hold, at whatever depth, a number that is
none or an object without data are unequal when arrays are always compared item by item, while equality may hold of them. -/
theorem equality_on_shared (arrays : Nat → List Value) (left right : Value) (leftResolves : left.Resolves arrays)
    (rightResolves : right.Resolves arrays) :
    left.alike right = (left.equals right && left.sharesSteady right) ∧
      (left.sharesSteady right = true → left.equals right = left.alike right) := by
  have exact := alike_exact arrays left right leftResolves rightResolves
  exact ⟨exact, fun steady => by rw [exact, steady, Bool.and_true]⟩

-- Two arrays that share one with a text in it are equal, whichever way they are compared.
theorem equality_on_shared_texts :
    let text := ClassTable.intrinsic.text "a"
    let shared := ClassTable.intrinsic.array 1 [text]
    (ClassTable.intrinsic.array 0 [shared, text]).alike (ClassTable.intrinsic.array 2 [shared, text]) = true := by
  intro text shared
  let arrays : Nat → List Value
    | 1 => [text]
    | _ => [shared, text]
  have resolves : ResolvesItems arrays [shared, text] := ⟨⟨rfl, trivial, trivial⟩, trivial, trivial⟩
  have both := equality_on_shared arrays (ClassTable.intrinsic.array 0 [shared, text])
    (ClassTable.intrinsic.array 2 [shared, text]) ⟨rfl, resolves⟩ ⟨rfl, resolves⟩
  exact both.1.trans (by decide +kernel)

-- An array with an object in it is equal to itself, but not item by item.
theorem equality_hides_object : ¬ ∀ (arrays : Nat → List Value) (left right : Value), left.Resolves arrays →
    right.Resolves arrays → left.equals right = left.alike right := by
  intro agree
  let object := ClassTable.intrinsic.instantiate .object .none
  let array := ClassTable.intrinsic.array 0 [object]
  have resolves : array.Resolves fun _ => [object] := ⟨rfl, trivial, trivial⟩
  have same := agree _ array array resolves resolves
  exact absurd same (by decide +kernel)

mutual

theorem equals_symm : (left right : Value) → left.equals right = true → right.equals left = true
  | ⟨_, _, _, leftData⟩, ⟨_, _, _, rightData⟩, same => by
    have ⟨kin, alike⟩ := Bool.and_eq_true_iff.mp same
    exact Bool.and_eq_true_iff.mpr ⟨BEq.symm kin, equal_data_symm leftData rightData alike⟩

theorem equal_data_symm : (left right : Data Value) → equalData left right = true → equalData right left = true
  | .number left, .number right, same => Number.beq_symm left right same
  | .text _, .text _, same | .flag _, .flag _, same | .function _ _, .function _ _, same | .promise _, .promise _, same =>
    beq_iff_eq.mpr (beq_iff_eq.mp same).symm
  | .array _ leftItems, .array _ rightItems, same =>
    Bool.or_eq_true_iff.mpr ((Bool.or_eq_true_iff.mp same).imp BEq.symm (equal_items_symm leftItems rightItems))
  | .void, .void, _ => rfl

theorem equal_items_symm : (left right : List Value) → equalItems left right = true → equalItems right left = true
  | [], [], _ => rfl
  | left :: leftRest, right :: rightRest, same => by
    have ⟨head, rest⟩ := Bool.and_eq_true_iff.mp same
    exact Bool.and_eq_true_iff.mpr ⟨equals_symm left right head, equal_items_symm leftRest rightRest rest⟩

end

variable (arrays : Nat → List Value)

mutual

theorem equals_trans : (left middle right : Value) → left.Resolves arrays → middle.Resolves arrays → right.Resolves arrays →
    left.equals middle = true → middle.equals right = true → left.equals right = true
  | ⟨_, _, _, leftData⟩, ⟨_, _, _, middleData⟩, ⟨_, _, _, rightData⟩, leftKnown, middleKnown, rightKnown, first, second => by
    have ⟨kin, alike⟩ := Bool.and_eq_true_iff.mp first
    have ⟨kinNext, alikeNext⟩ := Bool.and_eq_true_iff.mp second
    exact Bool.and_eq_true_iff.mpr ⟨PartialEquivBEq.trans kin kinNext,
      equal_data_trans leftData middleData rightData leftKnown middleKnown rightKnown alike alikeNext⟩

theorem equal_data_trans (left middle right : Data Value) (leftKnown : ResolvesData arrays left)
    (middleKnown : ResolvesData arrays middle) (rightKnown : ResolvesData arrays right) (first : equalData left middle = true)
    (second : equalData middle right = true) : equalData left right = true := by
  match left with
  | .array left leftItems =>
    cases middle with
    | array middle middleItems =>
      cases right with
      | array right rightItems =>
        -- A step that goes by identity has the same items on both sides, so the other step is the one that counts.
        rcases Bool.or_eq_true_iff.mp first with shared | alike
        · obtain rfl := eq_of_beq shared
          obtain rfl : leftItems = middleItems := leftKnown.1.symm.trans middleKnown.1
          exact second
        rcases Bool.or_eq_true_iff.mp second with shared | alikeNext
        · obtain rfl := eq_of_beq shared
          obtain rfl : middleItems = rightItems := middleKnown.1.symm.trans rightKnown.1
          exact first
        exact Bool.or_eq_true_iff.mpr (.inr (equal_items_trans leftItems middleItems rightItems leftKnown.2 middleKnown.2
          rightKnown.2 alike alikeNext))
      | _ => cases second
    | _ => cases first
  | .number left =>
    cases middle with
    | number middle =>
      cases right with
      | number right => exact Number.beq_trans left middle right first second
      | _ => cases second
    | _ => cases first
  | .function left _ =>
    cases middle with
    | function middle _ =>
      cases right with
      | function right _ => exact beq_iff_eq.mpr ((beq_iff_eq.mp first).trans (beq_iff_eq.mp second))
      | _ => cases second
    | _ => cases first
  | .text _ =>
    cases middle with
    | text _ => exact beq_iff_eq.mp first ▸ second
    | _ => cases first
  | .flag _ =>
    cases middle with
    | flag _ => exact beq_iff_eq.mp first ▸ second
    | _ => cases first
  | .promise _ =>
    cases middle with
    | promise _ => exact beq_iff_eq.mp first ▸ second
    | _ => cases first
  | .void =>
    cases middle with
    | void => exact second
    | _ => cases first
  | .none => cases first

theorem equal_items_trans : (left middle right : List Value) → ResolvesItems arrays left → ResolvesItems arrays middle →
    ResolvesItems arrays right → equalItems left middle = true → equalItems middle right = true →
    equalItems left right = true
  | [], [], [], _, _, _, _, _ => rfl
  | left :: leftRest, middle :: middleRest, right :: rightRest, ⟨leftKnown, leftOthers⟩, ⟨middleKnown, middleOthers⟩,
      ⟨rightKnown, rightOthers⟩, first, second => by
    have ⟨head, rest⟩ := Bool.and_eq_true_iff.mp first
    have ⟨headNext, restNext⟩ := Bool.and_eq_true_iff.mp second
    exact Bool.and_eq_true_iff.mpr ⟨equals_trans left middle right leftKnown middleKnown rightKnown head headNext,
      equal_items_trans leftRest middleRest rightRest leftOthers middleOthers rightOthers rest restNext⟩

end

/-- Equality is a partial equivalence. -/
theorem equality_symmetric_transitive (left middle right : Value) (leftResolves : left.Resolves arrays)
    (middleResolves : middle.Resolves arrays) (rightResolves : right.Resolves arrays) :
    (left.equals middle = true → middle.equals left = true) ∧
      (left.equals middle = true → middle.equals right = true → left.equals right = true) :=
  ⟨equals_symm left middle, equals_trans arrays left middle right leftResolves middleResolves rightResolves⟩

theorem equality_symmetric_transitive_shared :
    let object := ClassTable.intrinsic.instantiate .object .none
    let shared := ClassTable.intrinsic.array 1 [object]
    let text := ClassTable.intrinsic.text "a"
    let one := ClassTable.intrinsic.array 0 [shared, text]
    let other := ClassTable.intrinsic.array 2 [shared, text]
    let third := ClassTable.intrinsic.array 3 [shared, text]
    one.equals other = true ∧ other.equals one = true ∧ other.equals third = true ∧ one.equals third = true := by
  intro object shared text one other third
  let arrays : Nat → List Value
    | 1 => [object]
    | _ => [shared, text]
  have items : ResolvesItems arrays [shared, text] := ⟨⟨rfl, trivial, trivial⟩, trivial, trivial⟩
  have both := equality_symmetric_transitive arrays one other third ⟨rfl, items⟩ ⟨rfl, items⟩ ⟨rfl, items⟩
  have first : one.equals other = true := by decide +kernel
  have second : other.equals third = true := by decide +kernel
  exact ⟨first, both.1 first, second, both.2 first second⟩

end CoopScript.Value
