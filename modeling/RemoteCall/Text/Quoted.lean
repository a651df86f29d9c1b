import RemoteCall.Text.Printable

/-!
# Quoted text

A text between double quotes. The quote, the backslash and the common control characters have
short escapes; every other character that cannot be shown on its own is written by its code point
in braces.
-/

namespace RemoteCall.Text

/-- A character as it stands inside a quoted text. -/
def escape (c : Char) : List Char :=
  match c with
  | '\x00' => ['\\', '0']
  | '\t' => ['\\', 't']
  | '\r' => ['\\', 'r']
  | '\n' => ['\\', 'n']
  | '\\' => ['\\', '\\']
  | '"' => ['\\', '"']
  | c =>
    if isExtending c || !isPrintable c then
      '\\' :: 'u' :: '\x7b' :: Nat.toDigits 16 c.toNat ++ ['\x7d']
    else [c]

/-- A text between double quotes. -/
def quoted (text : String) : String := String.ofList ('"' :: text.toList.flatMap escape ++ ['"'])

end RemoteCall.Text
