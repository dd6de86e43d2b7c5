import CoopScript.Number.Binary64

set_option autoImplicit false
namespace CoopScript.Number

def digitsValue (digits : List Char) : Nat :=
  digits.foldl (fun value digit => 10 * value + (digit.toNat - '0'.toNat)) 0

-- The double nearest to `± digits * 10 ^ power`. Powers far outside the range of doubles are decided from the number
-- of digits alone.
def ofDecimal (negative : Bool) (digits : Nat) (power : Int) : Float :=
  let leading := (Nat.toDigits 10 digits).length + power
  if digits = 0 || leading < -400 then ofPattern negative 0
  else if 400 < leading then infinity negative
  else ofRatio negative (digits * Nat.pow 10 power.toNat) (Nat.pow 10 (-power).toNat)

def exponent? : List Char → Option Int
  | [] => some 0
  | mark :: rest =>
    if mark = 'e' || mark = 'E' then
      let (negative, digits) := match rest with
        | '-' :: digits => (true, digits)
        | '+' :: digits => (false, digits)
        | digits => (false, digits)
      if digits.isEmpty || !digits.all Char.isDigit then none
      else some (if negative then -(digitsValue digits : Int) else digitsValue digits)
    else none

def magnitude? (negative : Bool) (text : List Char) : Option Float :=
  let word := text.map Char.toLower
  if word = "inf".toList || word = "infinity".toList then some (infinity negative)
  else if word = "nan".toList then some notANumber
  else
    let whole := text.takeWhile Char.isDigit
    let rest := text.dropWhile Char.isDigit
    let (fraction, rest) := match rest with
      | '.' :: rest => (rest.takeWhile Char.isDigit, rest.dropWhile Char.isDigit)
      | rest => ([], rest)
    if whole.isEmpty && fraction.isEmpty then none
    else (exponent? rest).map fun power =>
      ofDecimal negative (digitsValue (whole ++ fraction)) (power - fraction.length)

def read? (text : String) : Option Float :=
  match text.toList with
  | '-' :: rest => magnitude? true rest
  | '+' :: rest => magnitude? false rest
  | rest => magnitude? false rest

end CoopScript.Number
