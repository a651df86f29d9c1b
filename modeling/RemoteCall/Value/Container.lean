import RemoteCall.Value.Order
import RemoteCall.Typing.Assignable

/-!
# Building containers

Sets keep the first of equal items, maps keep the last value of equal keys in the place of the
first. Sorted containers are sorted by their comparator, stably, and then lose every item that the
comparator finds equal to the one kept before it; for a sorted map the entries are turned round
first, so that the last entry of a key wins. A container of a custom comparator keeps its order.
-/

namespace RemoteCall

/-- The items without those that equal an item kept before. -/
def distinct (items : List Value) : List Value :=
  items.foldl (fun kept item => if kept.any (·.same item) then kept else kept ++ [item]) []

/-- Of no items none is kept. -/
theorem distinct_nil : distinct [] = [] := rfl

/-- The entries with the value of a key replaced, or with a new entry at the end. -/
def putEntry (key value : Value) : List (Value × Value) → List (Value × Value)
  | [] => [(key, value)]
  | (k, v) :: rest => if k.same key then (k, value) :: rest else (k, v) :: putEntry key value rest

/-- The entries with one entry for each of the keys that differ. -/
def distinctEntries (entries : List (Value × Value)) : List (Value × Value) :=
  entries.foldl (fun kept (key, value) => putEntry key value kept) []

/-- Whether an item is equal to one of the items. -/
def containsValue (item : Value) (items : List Value) : Bool := items.any (·.same item)

/-- The value of the first entry with an equal key. -/
def findValue? (key : Value) (entries : List (Value × Value)) : Option Value :=
  (entries.find? (·.1.same key)).map (·.2)

/-- The list without the elements that tie with the last one kept. -/
def dropTies (tie : α → α → Bool) : List α → List α
  | [] => []
  | x :: xs => x :: go x xs
where
  /-- Continues after `last` has been kept. -/
  go (last : α) : List α → List α
    | [] => []
    | y :: ys => if tie last y then go last ys else y :: go y ys

/-- Sorted by the comparator, without ties; a custom comparator changes nothing. -/
def arrange (c : Comparator) (key : α → Value) (elements : List α) : List α :=
  if c.isCustom then elements
  else
    dropTies (fun a b => c.compare? (key a) (key b) == some .eq)
      (elements.mergeSort fun a b => c.sortOrder (key a) (key b) != .gt)

namespace Value

/-- An array of a declared element type, which every item must fit. -/
def ofArray (id : Nat) (element : TypeRef) (items : List Value) : Except CodecError Value :=
  if element = .void then .error (.invalidValue .arrayElementType element.name)
  else
    match items.find? (!element.accepts ·) with
    | some bad =>
      .error (.invalidValue .arrayElement s!"{bad.typeName} is not assignable to {element.name}")
    | none => .ok (.collection id (.array element) items)

/-- A list. -/
def ofList (id : Nat) (items : List Value) : Value := .collection id .list items

/-- A set of the items that differ. -/
def ofSet (id : Nat) (items : List Value) : Value := .collection id .set (distinct items)

/-- A set in the order of a comparator. -/
def ofSortedSet (id : Nat) (c : Comparator) (items : List Value) : Value :=
  .collection id (.sortedSet c) (arrange c (fun item => item) items)

/-- A map with the last value of each key. -/
def ofEntries (id : Nat) (entries : List (Value × Value)) : Value :=
  .map id .plain (distinctEntries entries)

/-- A map in the order of a comparator of its keys. -/
def ofSortedEntries (id : Nat) (c : Comparator) (entries : List (Value × Value)) : Value :=
  .map id (.sorted c) (arrange c (·.1) entries.reverse)

end Value

end RemoteCall
