import RemoteCall.Text.CaseTable

/-!
# Lower case

The full lower-case mapping of a text. Two characters need more than the table: the dotted capital
I becomes two characters, and a capital sigma at the end of a word takes the final form.
-/

namespace RemoteCall.Text

/-- The lower-case form of one character, whatever stands around it. -/
def lowerChar (c : Char) : Char :=
  match lowerRuns.find? fun (low, high, step, _) =>
      low ≤ c.toNat && c.toNat ≤ high && (c.toNat - low) % step == 0 with
  | some (_, _, _, shift) => Char.ofNat (c.toNat + shift).toNat
  | none => c

/-- Whether the first character that is not passed over is cased. -/
def startsCased (text : List Char) : Bool :=
  match text.dropWhile (inRanges ignorableRanges) with
  | [] => false
  | c :: _ => inRanges casedRanges c

/-- Lower case of a text, given the characters before it with the nearest first. -/
def lowerFrom (before : List Char) : List Char → List Char
  | [] => []
  | c :: rest =>
    let lowered :=
      if c = 'Σ' then (if startsCased before && !startsCased rest then ['ς'] else ['σ'])
      else if c = 'İ' then ['i', '\u0307']
      else [lowerChar c]
    lowered ++ lowerFrom (c :: before) rest

/-- A text in lower case. -/
def lower (text : String) : String := String.ofList (lowerFrom [] text.toList)

end RemoteCall.Text
