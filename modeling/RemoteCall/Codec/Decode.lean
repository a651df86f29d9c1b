import RemoteCall.Codec.ClassId
import RemoteCall.Codec.Scalar
import RemoteCall.Codec.Settings
import RemoteCall.Envelope.Request
import RemoteCall.Envelope.Response
import RemoteCall.Value.Container

/-!
# Decoding

The inverse of encoding, for input that nobody vouches for. A reader keeps a slot for every tracked
instance in the order in which they begin; a slot is filled when its instance is complete, so a
reference to a slot gives the very instance, and a reference to an open slot is an error. Unknown
classes, comparators that the policy refuses, counts beyond the input, nesting beyond the limit and
bytes after the envelope are errors too.

The number of a decoded instance is the position of its slot.
-/

namespace RemoteCall

/-- The place of one tracked instance. -/
structure DecodeSlot where
  /-- The class under which the instance was announced. -/
  classId : Nat
  /-- The instance, once it is complete. -/
  value : Option Value

/-- What a decoder knows while it reads. -/
structure DecodeState where
  /-- The input that is left. -/
  rest : List UInt8
  /-- The instances in the order in which they began. -/
  slots : List DecodeSlot
  /-- How many values have been read completely. -/
  valuesRead : Nat

/-- A step that reads and may refer to the instances read before. -/
abbrev Decoder := EStateM CodecError DecodeState

namespace Decoder

/-- A reader of the input, which touches no instance. -/
def wire (r : Reader α) : Decoder α := fun state =>
  match r state.rest with
  | .ok (a, rest) => .ok a { state with rest }
  | .error e => .error e state

/-- A result that is known without reading. -/
def known (a : Except CodecError α) : Decoder α := fun state =>
  match a with
  | .ok a => .ok a state
  | .error e => .error e state

/-- Counts a value that has been read completely. -/
def counted (v : Value) : Decoder Value := fun state =>
  .ok v { state with valuesRead := state.valuesRead + 1 }

/-- Opens the slot of an instance and gives its position. -/
def openSlot (classId : Nat) : Decoder Nat := fun state =>
  .ok state.slots.length { state with slots := state.slots ++ [⟨classId, none⟩] }

/-- Fills the slot of a complete instance. -/
def fillSlot (classId position : Nat) (v : Value) : Decoder Unit := fun state =>
  .ok () { state with slots := state.slots.set position ⟨classId, some v⟩ }

/-- The instance that a reference means. -/
def referenced (classId position : Nat) : Decoder Value := do
  match (← get).slots[position]? with
  | none => throw (.invalidReference position)
  | some slot =>
    if slot.classId ≠ classId then throw (.unexpectedClass .referencedClass classId)
    match slot.value with
    | some v => return v
    | none => throw (.cyclicReference position)

/-- As many results as a count says. -/
def repeated (item : Decoder α) : (count : Nat) → Decoder (List α)
  | 0 => return []
  | count + 1 => do
    let a ← item
    return a :: (← repeated item count)

/-- Refuses an element type that is no value, or that does not belong to the class of its array. -/
def checkElementType (classId : Nat) (element : TypeRef) : Except CodecError Unit :=
  if element = .void ∨ ClassId.ofArray element ≠ classId then
    .error (.invalidValue .arrayElementType element.name)
  else .ok ()

/-- A type reference. -/
def typeRef (s : CodecSettings) : (room : Nat) → Reader TypeRef
  | 0 => throw (.depthExceeded s.maxDepth)
  | room + 1 => do
    let id ← Varint.read32
    if id = ClassId.void then return .void
    else if id = ClassId.any then return .any
    else if id = ClassId.collection then
      let tag ← Reader.byte
      .collection <$> Scalar.demand .collectionKind (toString tag.toNat) (CollectionKind.ofTag? tag)
    else if id = ClassId.map then
      let tag ← Reader.byte
      .map <$> Scalar.demand .mapKind (toString tag.toNat) (MapKind.ofTag? tag)
    else if id = ClassId.scalarArray ∨ id = ClassId.instanceArray then
      let element ← typeRef s room
      checkElementType id element
      return .array element
    else if RegisteredClass.base ≤ id then
      return .registered (← s.registry.byClassId id).name
    else
      match ScalarType.ofClassId? id with
      | some t => return .scalar t
      | none => throw (.unexpectedClass .typeReference id)

/-- A comparator that the policy permits. -/
def comparator (s : CodecSettings) : Reader Comparator := do
  let id ← Reader.byte
  let c ← if id = (Comparator.custom "").wireId then .custom <$> Sized.readText
    else Scalar.demand .comparatorId (toString id.toNat) (Comparator.standard? id)
  s.comparators.check c
  return c

/-- A body of a class: a complete value, a reference, or an instance that starts here and is read
by `fresh` from its position and class. -/
def bodyWith (s : CodecSettings) (fresh : (position classId : Nat) → Decoder Value)
    (classId : Nat) : Decoder Value := do
  let kind ← known (ValueKind.ofClassId s.registry classId)
  if kind = .comparator then throw (.unexpectedClass .valueClass classId)
  else if !kind.isTracked then counted (← fresh 0 classId)
  else
    let marker ← wire Varint.read32
    if marker ≠ 0 then counted (← referenced classId (marker - 1))
    else
      let position ← openSlot classId
      let v ← fresh position classId
      fillSlot classId position v
      counted v

/-- A value with its class tag, given a reader of bodies. -/
def tagged (body : Nat → Decoder Value) : Decoder Value := do
  let tag ← wire Varint.read32
  if tag = 0 then counted .null else body (tag - 1)

/-- An element under the tag of its container, which is zero if each element has its own. -/
def element (body : Nat → Decoder Value) (tag : Nat) : Decoder Value :=
  if tag = 0 then tagged body else body (tag - 1)

/-- The elements of a collection. -/
def elements (body : Nat → Decoder Value) : Decoder (List Value) := do
  let count ← wire (Sized.readCount 1)
  if count = 0 then return []
  let tag ← wire Varint.read32
  repeated (element body tag) count

/-- The entries of a map. -/
def entries (body : Nat → Decoder Value) : Decoder (List (Value × Value)) := do
  let count ← wire (Sized.readCount 2)
  if count = 0 then return []
  let keyTag ← wire Varint.read32
  let valueTag ← wire Varint.read32
  let entry : Decoder (Value × Value) := do
    let k ← element body keyTag
    let v ← element body valueTag
    return (k, v)
  repeated entry count

/-- An array of a class, at a position. -/
def array (s : CodecSettings) (room : Nat) (body : Nat → Decoder Value)
    (position classId : Nat) : Decoder Value := do
  let type ← wire (typeRef s room)
  known (checkElementType classId type)
  let items ← elements body
  known (Value.ofArray position type items)

/-- A list, set or sorted set, at a position. -/
def collection (s : CodecSettings) (body : Nat → Decoder Value) (position : Nat) :
    Decoder Value := do
  let tag ← wire Reader.byte
  match CollectionKind.ofTag? tag with
  | some .list => return .collection position .list (← elements body)
  | some .set => return .collection position .set (← elements body)
  | some .sortedSet =>
    let order ← wire (comparator s)
    return Value.ofSortedSet position order (← elements body)
  | none => throw (.invalidValue .collectionKind (toString tag.toNat))

/-- A map or sorted map, at a position. -/
def map (s : CodecSettings) (body : Nat → Decoder Value) (position : Nat) : Decoder Value := do
  let tag ← wire Reader.byte
  match MapKind.ofTag? tag with
  | some .plain => return .map position .plain (← entries body)
  | some .sorted =>
    let order ← wire (comparator s)
    return Value.ofSortedEntries position order (← entries body)
  | none => throw (.invalidValue .mapKind (toString tag.toNat))

/-- An object or variant of a registered class, at a position. -/
def registered (s : CodecSettings) (body : Nat → Decoder Value) (position classId : Nat) :
    Decoder Value := do
  let c ← known (s.registry.byClassId classId)
  match c.shape with
  | .object names => return .object position c.name (← repeated (tagged body) names.length)
  | .enum variants =>
    let ordinal ← wire Varint.read32
    if ordinal < variants.length then return .variant c.name ordinal.toUInt32
    else throw (.invalidValue .enumOrdinal (c.name ++ "#" ++ toString ordinal))

/-- The contents of a value of a class, one level deep, given a reader of the bodies inside. -/
def contents (s : CodecSettings) (room : Nat) (body : Nat → Decoder Value)
    (position classId : Nat) : Decoder Value :=
  match ScalarType.ofClassId? classId with
  | some t => .scalar <$> wire (Scalar.read t)
  | none =>
    if classId = ClassId.scalarArray ∨ classId = ClassId.instanceArray then
      array s room body position classId
    else if classId = ClassId.collection then collection s body position
    else if classId = ClassId.map then map s body position
    else registered s body position classId

/-- The body of a value of a class, with room for so many levels of nesting. -/
def body (s : CodecSettings) : (room : Nat) → (classId : Nat) → Decoder Value
  | 0 => bodyWith s fun _ _ => throw (.depthExceeded s.maxDepth)
  | room + 1 => bodyWith s (contents s room (body s room))

/-- A value with its class tag. -/
def value (s : CodecSettings) : Decoder Value := tagged (body s s.maxDepth)

/-- A type specification with a flag read before. -/
def typeSpec (s : CodecSettings) (isPrimitive : Bool) : Reader TypeSpec := do
  let spec : TypeSpec := ⟨← typeRef s s.maxDepth, isPrimitive⟩
  if spec.isValid then return spec else throw (.invalidPrimitive spec.type.name)

/-- The flag at a position of the flag bytes; beyond them no flag is set. -/
def flagAt (bytes : List UInt8) (i : Nat) : Bool :=
  (bytes[i / 8]?.getD 0).toNat.testBit (i % 8)

/-- Parameters from a position on. -/
def params (s : CodecSettings) (flags : List UInt8) : (count position : Nat) →
    Reader (List TypeSpec)
  | 0, _ => return []
  | count + 1, position => do
    let spec ← typeSpec s (flagAt flags position)
    return spec :: (← params s flags count (position + 1))

/-- The number of parameters, the flags, and the types with the return type first. -/
def signature (s : CodecSettings) : Reader Signature := do
  let count ← Sized.readCount 1
  let flags ← Sized.readBytes
  if count / 8 + 1 < flags.length then
    throw (.invalidValue .primitiveFlags s!"{flags.length} bytes for {count} parameters")
  let returns ← typeSpec s (flagAt flags 0)
  return ⟨returns, ← params s flags count 1⟩

/-- The tag of an envelope, or an error that names the class found; no class counts as the last
32-bit word. -/
def envelopeTag (classId : Nat) (expected : Expected) : Reader Unit := do
  let tag ← Varint.read32
  if tag ≠ classId + 1 then
    throw (.unexpectedClass expected (if tag = 0 then UInt32.size - 1 else tag - 1))

/-- A status by its number. -/
def status : Reader Status := do
  let ordinal ← Varint.read32
  Scalar.demand .statusOrdinal (toString ordinal) (Status.ofOrdinal? ordinal)

/-- A request envelope. -/
def request (s : CodecSettings) : Decoder Request := do
  wire (envelopeTag ClassId.request .request)
  let id ← wire Varint.read
  let timestamp ← wire Varint.readSigned
  let service ← wire Sized.readText
  let method ← wire Sized.readText
  let sig ← wire (signature s)
  let count ← wire (Sized.readCount 1)
  let arguments ← repeated (value s) count
  return ⟨id.toUInt64, Int64.ofInt timestamp, service, method, sig, arguments⟩

/-- A response envelope. -/
def response (s : CodecSettings) : Decoder Response := do
  wire (envelopeTag ClassId.response .response)
  let id ← wire Varint.read
  let timestamp ← wire Varint.readSigned
  let result ← wire status
  let message ← wire Sized.readOptionalText
  let payload ← value s
  return ⟨id.toUInt64, Int64.ofInt timestamp, result, message, payload⟩

/-- Runs a decoder on the whole of an input; nothing may be left over. -/
def run (d : Decoder α) (bytes : List UInt8) : Except CodecError α :=
  match EStateM.run d ⟨bytes, [], 0⟩ with
  | .ok a state =>
    if state.rest.isEmpty then .ok a else .error (.trailingBytes state.rest.length)
  | .error e _ => .error e

end Decoder

namespace CodecSettings

/-- The value that bytes spell. -/
def decodeValue (s : CodecSettings) (bytes : List UInt8) : Except CodecError Value :=
  (Decoder.value s).run bytes

/-- The request that bytes spell. -/
def decodeRequest (s : CodecSettings) (bytes : List UInt8) : Except CodecError Request :=
  (Decoder.request s).run bytes

/-- The response that bytes spell. -/
def decodeResponse (s : CodecSettings) (bytes : List UInt8) : Except CodecError Response :=
  (Decoder.response s).run bytes

end CodecSettings

end RemoteCall
