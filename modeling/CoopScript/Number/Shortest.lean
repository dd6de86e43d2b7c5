import CoopScript.Number.Binary64

set_option autoImplicit false
namespace CoopScript.Number

structure Decimal where
  digits : Nat
  exponent : Int
deriving DecidableEq

def digitCount (n : Nat) : Nat := if n = 0 then 0 else (Nat.toDigits 10 n).length

structure Span where
  low : Nat
  value : Nat
  high : Nat
  denominator : Nat
  closed : Bool

def Span.ofParts (coefficient : Nat) (exponent : Int) : Span :=
  let narrow := coefficient = Nat.pow 2 52 && exponent ≠ -1074
  let up := Nat.pow 2 (exponent - 2).toNat
  { low := (4 * coefficient - if narrow then 1 else 2) * up
    value := 4 * coefficient * up
    high := (4 * coefficient + 2) * up
    denominator := Nat.pow 2 (2 - exponent).toNat
    closed := coefficient % 2 = 0 }

def leadingPower (numerator denominator : Nat) : Int :=
  if denominator ≤ numerator then digitCount (numerator / denominator) - 1
  else -(digitCount ((denominator - 1) / numerator) : Nat)

def Span.holds (span : Span) (candidate : Nat) (unit : Nat) : Bool :=
  let point := candidate * unit
  if span.closed then span.low ≤ point && point ≤ span.high
  else span.low < point && point < span.high

-- Of the two neighbours of the value on the grid of step `10 ^ exponent`, the nearer one that names it; of two
-- equally near ones the upper.
def Span.onGrid (span : Span) (exponent : Int) : Option Nat :=
  let scale := Nat.pow 10 (-exponent).toNat
  let unit := span.denominator * Nat.pow 10 exponent.toNat
  let scaled : Span :=
    { span with low := span.low * scale, value := span.value * scale, high := span.high * scale }
  let below := scaled.value / unit
  let rest := scaled.value % unit
  match scaled.holds below unit, scaled.holds (below + 1) unit with
  | true, true => some (if 2 * rest < unit then below else below + 1)
  | true, false => some below
  | false, true => some (below + 1)
  | false, false => none

-- Tries grids of one more digit each; the nearest whole number stands in when none is left.
def Span.search (span : Span) (power : Int) : Nat → Nat → Decimal
  | 0, _ => ⟨span.value / span.denominator, 0⟩
  | tries + 1, count =>
    let exponent := power - count + 1
    match span.onGrid exponent with
    | some digits => ⟨digits, exponent⟩
    | none => span.search power tries (count + 1)

-- Ten units of one digit are one unit of the next.
def Decimal.reduced (decimal : Decimal) : Decimal :=
  if decimal.digits % 10 = 0 then ⟨decimal.digits / 10, decimal.exponent + 1⟩ else decimal

-- The shortest decimal for `coefficient * 2 ^ exponent`; seventeen digits always suffice.
def shortest (coefficient : Nat) (exponent : Int) : Decimal :=
  let span := Span.ofParts coefficient exponent
  (span.search (leadingPower span.value span.denominator) 17 1).reduced

def Decimal.positional (decimal : Decimal) : List Char :=
  let digits := Nat.toDigits 10 decimal.digits
  match decimal.exponent with
  | .ofNat zeros => digits ++ List.replicate zeros '0'
  | .negSucc places =>
    let places := places + 1
    if digits.length ≤ places then
      '0' :: '.' :: List.replicate (places - digits.length) '0' ++ digits
    else digits.take (digits.length - places) ++ '.' :: digits.drop (digits.length - places)

def signed (negative : Bool) (text : List Char) : String :=
  String.ofList (if negative then '-' :: text else text)

-- The shortest text that reads back as `x`, never with an exponent.
def shortestText (x : Float) : String :=
  match parts x with
  | .nan => "NaN"
  | .infinite negative => signed negative "inf".toList
  | .finite negative 0 _ => signed negative ['0']
  | .finite negative coefficient exponent =>
    signed negative (shortest coefficient exponent).positional

-- The text of a number value: like `shortestText`, but both zeros are `0`.
def text (x : Float) : String :=
  match parts x with
  | .finite _ 0 _ => "0"
  | _ => shortestText x

end CoopScript.Number
