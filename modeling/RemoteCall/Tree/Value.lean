import RemoteCall.Tree.Types
import RemoteCall.Value.Container

/-!
# Values as trees

A value is a record with its kind and its parts. A tree that is read may name an instance and refer
to it by that name further on. In a tree that is written exactly the tracked instances that stand
at several places have names, the numbers from 0 in the order in which they are met: the first
place holds the instance, the others refer to it.
-/

namespace RemoteCall

/-- What is known while values are read. -/
structure Naming where
  /-- The number of the next instance. -/
  next : Nat
  /-- The values that have names, the last one first. -/
  named : List (Tree × Value)

/-- A step that reads values, whose instances are new unless they are referred to. -/
abbrev TreeReader := StateT Naming (Except TreeError)

namespace TreeReader

/-- Runs a reader with no names known. -/
def run (r : TreeReader α) : Except TreeError α := (·.1) <$> StateT.run r ⟨0, []⟩

/-- The number of a new instance. -/
def fresh : TreeReader Nat := modifyGet fun n => (n.next, { n with next := n.next + 1 })

/-- Accepts what was built, or fails for the reason why it cannot be. -/
def built : Except CodecError α → TreeReader α
  | .ok a => return a
  | .error e => throw (.invalid e)

/-- What is read from the part of a record under a key. -/
def get (t : Tree) (key : String) (read : Tree → TreeReader α) : TreeReader α := do
  read (← Tree.demand key (t.get? key))

/-- The items of a list. -/
def toList (read : Tree → TreeReader α) : Tree → TreeReader (List α)
  | .list items => items.mapM read
  | _ => throw (.malformed "list")

end TreeReader

namespace Scalar

/-- A date, by the number of its day. -/
def dateOfTree (t : Tree) : Except TreeError Date := do
  Tree.demand "date" (Date.ofDays? (← t.toInt))

/-- A time of day, by its seconds and nanoseconds. -/
def timeOfTree (t : Tree) : Except TreeError Time := do
  let seconds ← t.get "s" (Tree.toUnsigned 32)
  let nanos ← t.get "n" (Tree.toUnsigned 32)
  Tree.demand "time" (Time.ofParts? seconds nanos)

/-- The scalar of a type that a record describes. -/
def ofTree (type : ScalarType) (t : Tree) : Except TreeError Scalar :=
  let v {α : Type} (read : Tree → Except TreeError α) : Except TreeError α := t.get "v" read
  match type with
  | .bool => .bool <$> v Tree.toBool
  | .byte => (.byte <| Int8.ofInt ·) <$> v (Tree.toSigned 8)
  | .short => (.short <| Int16.ofInt ·) <$> v (Tree.toSigned 16)
  | .int => (.int <| Int32.ofInt ·) <$> v (Tree.toSigned 32)
  | .long => (.long <| Int64.ofInt ·) <$> v (Tree.toSigned 64)
  | .float => (.float ·.toUInt32) <$> v (Tree.toWord 4)
  | .double => (.double ·.toUInt64) <$> v (Tree.toWord 8)
  | .char => do
    let code ← v (Tree.toUnsigned 32)
    if code.isValidChar then return .char (Char.ofNat code) else throw (.malformed "character")
  | .string => .string <$> v Tree.toText
  | .bigInteger => (.bigInteger <| BigInteger.ofBytes ·) <$> v Tree.toBytes
  | .bigDecimal => do
    let unscaled ← v Tree.toBytes
    return .bigDecimal ⟨.ofBytes unscaled, Int32.ofInt (← t.get "scale" (Tree.toSigned 32))⟩
  | .uuid => do
    let b ← v Tree.toBytes
    if h : b.length = 16 then return .uuid ⟨b, h⟩ else throw (.malformed "uuid")
  | .date => .date <$> v dateOfTree
  | .time => .time <$> timeOfTree t
  | .dateTime => return .dateTime ⟨← t.get "d" dateOfTree, ← timeOfTree t⟩
  | .instant => do
    let seconds ← t.get "s" Tree.toInt
    let nanos ← t.get "n" (Tree.toUnsigned 32)
    .instant <$> Tree.demand "instant" (Instant.ofUnix? seconds nanos)
  | .duration => do
    let seconds ← t.get "s" Tree.toInt
    let nanos ← t.get "n" Tree.toInt
    .duration <$> Tree.demand "duration" (Duration.ofParts? seconds nanos)
  | .charset => do .charset <$> ((Charset.ofName (← v Tree.toText)).mapError TreeError.invalid)
  | .bytes => .bytes <$> v Tree.toBytes

/-- What a record says of a scalar besides its type. -/
def fields : Scalar → List (String × Tree)
  | bool v => [("v", .bool v)]
  | byte v => [("v", .int v.toInt)]
  | short v => [("v", .int v.toInt)]
  | int v => [("v", .int v.toInt)]
  | long v => [("v", .digits v.toInt)]
  | float bits => [("v", .bytes (bigEndianBytes 4 bits.toNat))]
  | double bits => [("v", .bytes (bigEndianBytes 8 bits.toNat))]
  | char v => [("v", .int v.toNat)]
  | string v => [("v", .text v)]
  | bigInteger v => [("v", .bytes v.bytes)]
  | bigDecimal v => [("v", .bytes v.unscaled.bytes), ("scale", .int v.scale.toInt)]
  | uuid v => [("v", .bytes v.bytes)]
  | date v => [("v", .int v.days)]
  | time v => [("s", .int v.seconds), ("n", .int v.nanos)]
  | dateTime v =>
    [("d", .int v.date.days), ("s", .int v.time.seconds), ("n", .int v.time.nanos)]
  | instant v => [("s", .digits v.unixSeconds), ("n", .int v.nanos)]
  | duration v => [("s", .digits v.seconds), ("n", .int v.nanos)]
  | charset v => [("v", .text v.name)]
  | bytes v => [("v", .bytes v)]

end Scalar

namespace Value

open TreeReader in
/-- The value of a tree. The parts of a container come before the container. -/
def ofTree (t : Tree) : TreeReader Value := do
  if let some name := t.get? "ref" then
    return ← Tree.demand "instance" ((← get).named.lookup name)
  let members : TreeReader (List Value) := do
    let ⟨content, _⟩ ← t.part "v"
    (← Tree.demand "list" content.parts?).mapM fun ⟨u, _⟩ => ofTree u
  let pairs : TreeReader (List (Value × Value)) := do
    let ⟨content, _⟩ ← t.part "v"
    (← Tree.demand "list" content.parts?).mapM fun ⟨u, _⟩ => do
      match u.parts? with
      | some [⟨k, _⟩, ⟨v, _⟩] => return (← ofTree k, ← ofTree v)
      | _ => throw (.malformed "entry")
  let v ← match ← t.get "t" Tree.toText with
    | "null" => pure null
    | "enum" =>
      let name ← t.get "class" Tree.toText
      pure (variant name (← t.get "ordinal" (Tree.toUnsigned 32)).toUInt32)
    | "array" =>
      let element ← t.get "element" TypeRef.ofTree
      let items ← members
      built (ofArray (← fresh) element items)
    | "list" =>
      let items ← members
      pure (ofList (← fresh) items)
    | "set" =>
      let items ← members
      pure (ofSet (← fresh) items)
    | "sortedset" =>
      let order ← t.get "cmp" Comparator.ofTree
      let items ← members
      pure (ofSortedSet (← fresh) order items)
    | "map" =>
      let entries ← pairs
      pure (ofEntries (← fresh) entries)
    | "sortedmap" =>
      let order ← t.get "cmp" Comparator.ofTree
      let entries ← pairs
      pure (ofSortedEntries (← fresh) order entries)
    | "object" =>
      let name ← t.get "class" Tree.toText
      let items ← members
      pure (object (← fresh) name items)
    | tag => do
      let type ← Tree.demand "kind of value" (ScalarType.all.find? (·.name.toLower == tag))
      scalar <$> Scalar.ofTree type t
  if let some name := t.get? "id" then
    modify fun n => { n with named := (name, v) :: n.named }
  return v
  termination_by sizeOf t

/-- What is known of the tracked instances of a graph. -/
structure Sightings where
  /-- The instances that have been met. -/
  met : List Nat
  /-- Those that have been met again. -/
  again : List Nat

/-- Meets an instance, and what is inside of it if it is new. -/
def meet (isTracked : Bool) (id : Nat) (inside : StateM Sightings Unit) :
    StateM Sightings Unit := do
  let s ← get
  if !isTracked then inside
  else if s.met.contains id then set { s with again := id :: s.again }
  else
    set { s with met := id :: s.met }
    inside

mutual

/-- Meets the instances of a value. -/
def sightings : Value → StateM Sightings Unit
  | collection id form items => meet form.isTracked id (sightingsOf items)
  | map id _ entries => meet true id (sightingsOfEntries entries)
  | object id _ fields => meet true id (sightingsOf fields)
  | _ => return ()

/-- Meets the instances of values. -/
def sightingsOf : List Value → StateM Sightings Unit
  | [] => return ()
  | v :: rest => do
    v.sightings
    sightingsOf rest

/-- Meets the instances of keys and values. -/
def sightingsOfEntries : List (Value × Value) → StateM Sightings Unit
  | [] => return ()
  | (k, v) :: rest => do
    k.sightings
    v.sightings
    sightingsOfEntries rest

end

/-- The tracked instances that stand at several places of the values. -/
def shared (vs : List Value) : List Nat := ((sightingsOf vs).run ⟨[], []⟩).2.again

/-- Writes a container: in full where it is met first, under a name if it is shared. The state
holds the shared instances that have been written. -/
def write (shared : List Nat) (isTracked : Bool) (id : Nat)
    (fields : StateM (List Nat) (List (String × Tree))) : StateM (List Nat) Tree := do
  if isTracked && shared.contains id then
    let written ← get
    match written.idxOf? id with
    | some n => return .record [("ref", .int n)]
    | none =>
      set (written ++ [id])
      return .record (("id", .int written.length) :: (← fields))
  else return .record (← fields)

mutual

/-- The tree of a value in a graph with these shared instances. -/
def treeWithin (shared : List Nat) : Value → StateM (List Nat) Tree
  | null => return .record [("t", .text "null")]
  | scalar s => return .record (("t", .text s.type.name.toLower) :: s.fields)
  | variant c i =>
    return .record [("t", .text "enum"), ("class", .text c), ("ordinal", .int i.toNat)]
  | collection id form items =>
    write shared form.isTracked id do
      let v := ("v", .list (← treesWithin shared items))
      match form with
      | .array element => return [("t", .text "array"), ("element", element.toTree), v]
      | .list => return [("t", .text "list"), v]
      | .set => return [("t", .text "set"), v]
      | .sortedSet order => return [("t", .text "sortedset"), ("cmp", order.toTree), v]
  | map id form entries =>
    write shared true id do
      let v := ("v", .list (← entryTreesWithin shared entries))
      match form with
      | .plain => return [("t", .text "map"), v]
      | .sorted order => return [("t", .text "sortedmap"), ("cmp", order.toTree), v]
  | object id c fields =>
    write shared true id do
      return [("t", .text "object"), ("class", .text c),
        ("v", .list (← treesWithin shared fields))]

/-- The trees of values. -/
def treesWithin (shared : List Nat) : List Value → StateM (List Nat) (List Tree)
  | [] => return []
  | v :: rest => return (← v.treeWithin shared) :: (← treesWithin shared rest)

/-- The trees of entries: lists of a key and a value. -/
def entryTreesWithin (shared : List Nat) : List (Value × Value) → StateM (List Nat) (List Tree)
  | [] => return []
  | (k, v) :: rest => do
    let entry := .list [← k.treeWithin shared, ← v.treeWithin shared]
    return entry :: (← entryTreesWithin shared rest)

end

/-- Values as the trees of one graph. -/
def toTrees (vs : List Value) : List Tree := ((treesWithin (shared vs) vs).run []).1

/-- A value as a tree. -/
def toTree (v : Value) : Tree := ((v.treeWithin (shared [v])).run []).1

end Value

end RemoteCall
