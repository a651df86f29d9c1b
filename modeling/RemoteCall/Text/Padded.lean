/-!
# Numbers of a fixed width

A number written in decimal with zeros in front up to a width, the form that dates, times and
fractions of a second use.
-/

namespace RemoteCall.Text

/-- A number in decimal, filled up with zeros from the left to `width` digits. -/
def padded (width n : Nat) : String :=
  let digits := Nat.toDigits 10 n
  String.ofList (List.replicate (width - digits.length) '0' ++ digits)

end RemoteCall.Text
