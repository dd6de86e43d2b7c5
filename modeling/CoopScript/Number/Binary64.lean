/-!
Double-precision numbers taken apart into a sign, a coefficient and a power of two, and put together
again from an exact ratio. Putting together rounds to the nearest double, a tie to the even one.
-/
set_option autoImplicit false
namespace CoopScript.Number

-- A finite number is `± coefficient * 2 ^ exponent`.
inductive Parts where
  | nan
  | infinite (negative : Bool)
  | finite (negative : Bool) (coefficient : Nat) (exponent : Int)
deriving DecidableEq

def parts (x : Float) : Parts :=
  let bits := x.toBits.toNat
  let negative : Bool := bits / Nat.pow 2 63 = 1
  let scale : Nat := bits / Nat.pow 2 52 % Nat.pow 2 11
  let fraction := bits % Nat.pow 2 52
  if scale = 2047 then
    if fraction = 0 then .infinite negative else .nan
  else if scale = 0 then .finite negative fraction (-1074)
  else .finite negative (fraction + Nat.pow 2 52) ((scale : Int) - 1075)

def ofPattern (negative : Bool) (magnitude : Nat) : Float :=
  Float.ofBits (UInt64.ofNat (magnitude + if negative then Nat.pow 2 63 else 0))

def infinity (negative : Bool) : Float := ofPattern negative (2047 * Nat.pow 2 52)

def notANumber : Float := ofPattern false (2047 * Nat.pow 2 52 + Nat.pow 2 51)

-- `coefficient * 2 ^ exponent`, for a coefficient of at most 53 bits and an exponent from -1074 on; a coefficient
-- below `2 ^ 52` belongs to the smallest exponent.
def assemble (negative : Bool) (coefficient : Nat) (exponent : Int) : Float :=
  if coefficient < Nat.pow 2 52 then ofPattern negative coefficient
  else
    let scale := (exponent + 1075).toNat
    if scale < 2047 then ofPattern negative (scale * Nat.pow 2 52 + (coefficient - Nat.pow 2 52))
    else infinity negative

def roundHalfEven (numerator denominator : Nat) : Nat :=
  let quotient := numerator / denominator
  let twice := 2 * (numerator % denominator)
  if twice < denominator then quotient
  else if denominator < twice then quotient + 1
  else quotient + quotient % 2

def rescale (numerator denominator : Nat) (exponent : Int) : Nat × Nat :=
  match exponent with
  | .ofNat up => (numerator, denominator * Nat.pow 2 up)
  | .negSucc down => (numerator * Nat.pow 2 (down + 1), denominator)

def ofRatio (negative : Bool) (numerator denominator : Nat) : Float :=
  if numerator = 0 then ofPattern negative 0
  else
    let guess : Int := (numerator.log2 : Int) - denominator.log2 - 52
    let (above, below) := rescale numerator denominator guess
    let fitted := if above < below * Nat.pow 2 52 then guess - 1 else guess
    let exponent := max fitted (-1074)
    let (above, below) := rescale numerator denominator exponent
    let coefficient := roundHalfEven above below
    if coefficient = Nat.pow 2 53 then assemble negative (Nat.pow 2 52) (exponent + 1)
    else assemble negative coefficient exponent

def natural? (x : Float) : Option Nat :=
  match parts x with
  | .finite negative coefficient exponent =>
    let (above, below) := rescale coefficient 1 (-exponent)
    if above % below = 0 && (!negative || above = 0) then some (above / below) else none
  | _ => none

def floor? (x : Float) : Option Nat :=
  match parts x with
  | .finite negative coefficient exponent =>
    let (above, below) := rescale coefficient 1 (-exponent)
    if negative && above != 0 then none else some (above / below)
  | _ => none

def remainder (x y : Float) : Float :=
  match parts x, parts y with
  | .finite negative left leftExponent, .finite _ right rightExponent =>
    if right = 0 then notANumber
    else
      let exponent := min leftExponent rightExponent
      let rest := left * Nat.pow 2 (leftExponent - exponent).toNat %
        (right * Nat.pow 2 (rightExponent - exponent).toNat)
      let (above, below) := rescale rest 1 (-exponent)
      ofRatio negative above below
  | .finite .., .infinite _ => x
  | _, _ => notANumber

end CoopScript.Number
