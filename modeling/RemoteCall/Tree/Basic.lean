import RemoteCall.CodecError
import RemoteCall.Number.BigInteger

/-!
# Trees of plain data

The form in which values, types and settings come from a text format such as JSON and go to it:
nothing, truth values, numbers, texts, lists and records. Integers may be given as their decimal
digits, byte strings are given as hexadecimal digits.
-/

namespace RemoteCall

/-- Plain data. -/
inductive Tree
  | null
  | bool (b : Bool)
  /-- The number `digits * 10 ^ (-places)`, as it is spelled. -/
  | number (digits : Int) (places : Nat)
  | text (s : String)
  | list (items : List Tree)
  | record (fields : List (String × Tree))
  deriving BEq, Inhabited

/-- Why a tree does not stand for what it should. -/
inductive TreeError
  | malformed (what : String)
  /-- Settings with a part that is missing, of another type or out of range. -/
  | settings
  /-- Something that is well formed and cannot be built. -/
  | invalid (cause : CodecError)
  deriving DecidableEq

namespace Tree

/-- An integer as a number. -/
def int (n : Int) : Tree := .number n 0

/-- An integer as its decimal digits. -/
def digits (n : Int) : Tree := .text (toString n)

/-- A byte string. -/
def bytes (b : List UInt8) : Tree := .text (BigInteger.hexText b)

/-- What may be absent. -/
def option (f : α → Tree) : Option α → Tree
  | none => .null
  | some a => f a

/-- A list of like things. -/
def listOf (f : α → Tree) (items : List α) : Tree := .list (items.map f)

/-- A part of a tree, smaller than the whole. -/
def Part (t : Tree) : Type := { u : Tree // sizeOf u < sizeOf t }

/-- The part of a record under a key. -/
def part? (key : String) : (t : Tree) → Option (Part t)
  | .record fields =>
    match h : fields.find? (·.1 == key) with
    | none => none
    | some (k, u) =>
      some ⟨u, by
        have := List.sizeOf_lt_of_mem (List.mem_of_find?_eq_some h)
        simp only [Prod.mk.sizeOf_spec] at this
        simp only [record.sizeOf_spec]
        omega⟩
  | _ => none

/-- The items of a list. -/
def parts? : (t : Tree) → Option (List (Part t))
  | .list items =>
    some (items.attach.map fun ⟨u, h⟩ => ⟨u, by
      have := List.sizeOf_lt_of_mem h
      simp only [list.sizeOf_spec]
      omega⟩)
  | _ => none

/-- The tree of a record under a key. -/
def get? (t : Tree) (key : String) : Option Tree := (t.part? key).map (·.1)

/-- Whether a record has a key. -/
def has (t : Tree) (key : String) : Bool := (t.get? key).isSome

/-- Accepts what was found, or names what is missing. -/
def demand (what : String) : Option α → Except TreeError α
  | some a => .ok a
  | none => .error (.malformed what)

/-- The part of a record under a key that must be there. -/
def part (key : String) (t : Tree) : Except TreeError (Part t) := demand key (t.part? key)

/-- What a record holds under a key that must be there. -/
def get (t : Tree) (key : String) (read : Tree → Except TreeError α) : Except TreeError α := do
  read (← demand key (t.get? key))

/-- What a record holds under a key, if it is there and not null. -/
def getD (t : Tree) (key : String) (read : Tree → Except TreeError α) (default : α) :
    Except TreeError α :=
  match t.get? key with
  | none | some .null => .ok default
  | some u => read u

/-- An integer, as a number or as its digits. -/
def toInt : Tree → Except TreeError Int
  | .number n 0 => .ok n
  | .text s => demand "integer" s.toInt?
  | _ => .error (.malformed "integer")

/-- An integer of an interval. -/
def toIntIn (low high : Int) (t : Tree) : Except TreeError Int := do
  let n ← t.toInt
  if low ≤ n ∧ n ≤ high then return n else throw (.malformed "integer in range")

/-- A signed integer of a number of bits. -/
def toSigned (bits : Nat) : Tree → Except TreeError Int :=
  let half : Nat := 1 <<< (bits - 1)
  toIntIn (-half) (half - 1)

/-- An unsigned integer of a number of bits. -/
def toUnsigned (bits : Nat) (t : Tree) : Except TreeError Nat :=
  Int.toNat <$> t.toIntIn 0 ((1 <<< bits : Nat) - 1)

/-- A truth value. -/
def toBool : Tree → Except TreeError Bool
  | .bool b => .ok b
  | _ => .error (.malformed "truth value")

/-- A text. -/
def toText : Tree → Except TreeError String
  | .text s => .ok s
  | _ => .error (.malformed "text")

/-- A list. -/
def toList (read : Tree → Except TreeError α) : Tree → Except TreeError (List α)
  | .list items => items.mapM read
  | _ => .error (.malformed "list")

/-- The number that a hexadecimal digit stands for. -/
def hexDigit? (c : Char) : Option Nat :=
  if '0' ≤ c ∧ c ≤ '9' then some (c.toNat - '0'.toNat)
  else if 'a' ≤ c ∧ c ≤ 'f' then some (c.toNat - 'a'.toNat + 10)
  else if 'A' ≤ c ∧ c ≤ 'F' then some (c.toNat - 'A'.toNat + 10)
  else none

/-- The bytes that pairs of hexadecimal digits stand for. -/
def hexBytes? : List Char → Option (List UInt8)
  | [] => some []
  | a :: b :: rest => do
    return (16 * (← hexDigit? a) + (← hexDigit? b)).toUInt8 :: (← hexBytes? rest)
  | [_] => none

/-- A byte string. -/
def toBytes (t : Tree) : Except TreeError (List UInt8) := do
  demand "hexadecimal digits" (hexBytes? (← t.toText).toList)

/-- The number that so many bytes spell. -/
def toWord (width : Nat) (t : Tree) : Except TreeError Nat := do
  let b ← t.toBytes
  if b.length = width then return ofBigEndian b else throw (.malformed "bytes")

end Tree

end RemoteCall
