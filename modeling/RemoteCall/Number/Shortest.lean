import RemoteCall.Number.Ieee

/-!
# Shortest decimal text of a floating-point number

A finite number is shown with the fewest decimal digits that read back as the same number, and of
those with the digits nearest to it; an exact tie goes up. The search is in exact arithmetic: for
one, two, … digits it tests the two neighbours of the number on that decimal grid. The layout is
positional for magnitudes from 10^-4 up to 10^16 and otherwise carries an exponent.
-/

namespace RemoteCall.Shortest

/-- A positive number and the interval of numbers that round to it, over one denominator. -/
structure Neighbourhood where
  low : Nat
  value : Nat
  high : Nat
  denominator : Nat
  /-- Whether the ends of the interval round to the number too. -/
  closed : Bool

/-- The neighbourhood of a finite positive word. Below a power of two the spacing is halved. -/
def neighbourhood (f : Ieee) (magnitude : Nat) : Neighbourhood :=
  let fraction := magnitude % (1 <<< f.fractionBits)
  let exponent := magnitude >>> f.fractionBits
  let mantissa := if exponent = 0 then fraction else fraction + (1 <<< f.fractionBits)
  let bias := (1 <<< (f.exponentBits - 1)) - 1
  let shift : Int := (max exponent 1 : Nat) - (bias + f.fractionBits + 2 : Nat)
  { low := (4 * mantissa - if fraction = 0 ∧ 1 < exponent then 1 else 2) <<< shift.toNat
    value := (4 * mantissa) <<< shift.toNat
    high := (4 * mantissa + 2) <<< shift.toNat
    denominator := 1 <<< (-shift).toNat
    closed := mantissa % 2 = 0 }

namespace Neighbourhood

/-- Whether the decimal `point * 10 ^ (-places)` reads back as the number. -/
def contains (n : Neighbourhood) (point : Nat) (places : Int) : Bool :=
  let position := point * n.denominator * Nat.pow 10 (-places).toNat
  let unit := Nat.pow 10 places.toNat
  if n.closed then n.low * unit ≤ position ∧ position ≤ n.high * unit
  else n.low * unit < position ∧ position < n.high * unit

/-- The exponent `e` with `10 ^ (e - 1) ≤ value < 10 ^ e`, for numbers of at least `10 ^ (-400)`. -/
def exponent (n : Neighbourhood) : Int :=
  (Nat.toDigits 10 (n.value * Nat.pow 10 400 / n.denominator)).length - 400

/-- The point of the grid with the given places that reads back as the number, if there is one:
the nearer of the two neighbours, the upper one at a tie. -/
def onGrid? (n : Neighbourhood) (places : Int) : Option Nat :=
  let numerator := n.value * Nat.pow 10 places.toNat
  let unit := n.denominator * Nat.pow 10 (-places).toNat
  let below := numerator / unit
  let downOk := n.contains below places
  let upOk := n.contains (below + 1) places
  if upOk && (!downOk || (2 * below + 1) * unit ≤ 2 * numerator) then some (below + 1)
  else if downOk then some below
  else none

/-- The first grid, from `count` digits on, with a point that reads back as the number. -/
def search (n : Neighbourhood) (exponent : Int) : (fuel count : Nat) → Nat × Int
  | 0, count => (n.value / n.denominator, exponent - count)
  | fuel + 1, count =>
    match n.onGrid? (count - exponent) with
    | some point => (point, count - exponent)
    | none => search n exponent fuel (count + 1)

end Neighbourhood

/-- Significant digits and the exponent `e` of the number `0.digits * 10 ^ e`. -/
structure Digits where
  digits : List Char
  exponent : Int

/-- The shortest digits of a finite positive word. Seventeen digits always suffice. -/
def digits (f : Ieee) (magnitude : Nat) : Digits :=
  let n := neighbourhood f magnitude
  let (point, places) := n.search n.exponent 17 1
  let shown := Nat.toDigits 10 point
  { digits := (shown.reverse.dropWhile (· == '0')).reverse
    exponent := shown.length - places }

/-- Digits with a point, at least one digit on either side of it. -/
def Digits.positional (d : Digits) : List Char :=
  if d.exponent ≤ 0 then '0' :: '.' :: List.replicate (-d.exponent).toNat '0' ++ d.digits
  else
    let whole := d.exponent.toNat
    if d.digits.length ≤ whole then
      d.digits ++ List.replicate (whole - d.digits.length) '0' ++ ['.', '0']
    else d.digits.take whole ++ '.' :: d.digits.drop whole

/-- One digit before the point, the others behind it, and a decimal exponent. -/
def Digits.scientific (d : Digits) : List Char :=
  match d.digits with
  | [] => []
  | first :: others =>
    let fraction := if others.isEmpty then [] else '.' :: others
    first :: fraction ++ 'e' :: (toString (d.exponent - 1)).toList

/-- The text of a word: positional from 10^-4 up to 10^16, else with an exponent. What is not a
number has no sign. -/
def text (f : Ieee) (bits : Nat) : String :=
  let magnitude := f.magnitude bits
  if f.isNaN bits then "NaN"
  else
    let sign := if f.isNegative bits then "-" else ""
    if magnitude = f.infinity then sign ++ "inf"
    else if magnitude = 0 then sign ++ "0.0"
    else
      let d := digits f magnitude
      sign ++ String.ofList
        (if d.exponent < -3 ∨ 16 < d.exponent then d.scientific else d.positional)

end RemoteCall.Shortest
