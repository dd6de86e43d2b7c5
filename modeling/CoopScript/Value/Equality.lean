import CoopScript.Value.Basic

set_option autoImplicit false
namespace CoopScript.Value

mutual

def equals : Value → Value → Bool
  | ⟨leftClass, _, _, leftData⟩, ⟨rightClass, _, _, rightData⟩ =>
    leftClass == rightClass && equalData leftData rightData

def equalData : Data Value → Data Value → Bool
  | .number left, .number right => left == right
  | .text left, .text right => left == right
  | .flag left, .flag right => left == right
  | .array left leftItems, .array right rightItems =>
    left == right || equalItems leftItems rightItems
  | .function left _, .function right _ => left == right
  | .promise left, .promise right => left == right
  | .void, .void => true
  | _, _ => false

def equalItems : List Value → List Value → Bool
  | [], [] => true
  | left :: leftRest, right :: rightRest => equals left right && equalItems leftRest rightRest
  | _, _ => false

end

end CoopScript.Value
