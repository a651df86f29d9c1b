import RemoteCall.Number.BigInteger

/-!
# Decimals of any size

A decimal is an integer of any size shifted by a power of ten. Equal numbers of different scale
are different decimals and have no natural order.
-/

namespace RemoteCall

/-- The number `unscaled * 10 ^ (-scale)`, together with that way of writing it. -/
structure BigDecimal where
  unscaled : BigInteger
  scale : Int32
  deriving DecidableEq

namespace BigDecimal

/-- The order of two decimals of one scale. -/
def compare? (a b : BigDecimal) : Option Ordering :=
  if a.scale = b.scale then some (a.unscaled.compare b.unscaled) else none

/-- An order of all decimals: by scale, then by unscaled number. -/
def totalCompare (a b : BigDecimal) : Ordering :=
  (Ord.compare a.scale.toInt b.scale.toInt).then (a.unscaled.compare b.unscaled)

/-- Digits with a point before the last `places` of them, filled up with zeros from the left. -/
def pointed (digits : List Char) (places : Nat) : List Char :=
  if places < digits.length then
    digits.take (digits.length - places) ++ '.' :: digits.drop (digits.length - places)
  else '0' :: '.' :: List.replicate (places - digits.length) '0' ++ digits

/-- Positional for a positive scale, else the unscaled number with an exponent. A number shown in
hexadecimal always has the exponent. -/
def text (d : BigDecimal) : String :=
  match d.unscaled.toInt128? with
  | some value =>
    if d.scale.toInt ≤ 0 then s!"{value}E{-d.scale.toInt}"
    else
      (if value < 0 then "-" else "") ++
        String.ofList (pointed (toString value.natAbs).toList d.scale.toInt.toNat)
  | none => d.unscaled.text ++ s!"E{-d.scale.toInt}"

end BigDecimal

end RemoteCall
