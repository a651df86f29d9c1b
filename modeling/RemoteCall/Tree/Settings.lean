import RemoteCall.Client.Settings
import RemoteCall.Codec.Settings
import RemoteCall.Server.Settings
import RemoteCall.Tree.Value

/-!
# Settings as trees

Settings are records, or lists of their parts in order. What is missing keeps its standard value;
a part of another type, or out of range, spoils the whole, and so does an absent one in a span of
time. The classes of a codec are registered in the order in which they are listed.
-/

namespace RemoteCall

namespace Tree

/-- Fails as settings do. -/
def setting : Option α → Except TreeError α
  | some a => .ok a
  | none => .error .settings

/-- A number of settings: whole, and below a bound. -/
def naturalBelow (bound : Nat) : Tree → Option Nat
  | .number n 0 => if 0 ≤ n ∧ n < bound then some n.toNat else none
  | _ => none

/-- The parts of settings under their keys, given as a record or in order. -/
def settingParts (keys : List String) : Tree → Except TreeError (List (String × Tree))
  | .record fields => .ok fields
  | .list items => if items.length ≤ keys.length then .ok (keys.zip items) else .error .settings
  | _ => .error .settings

/-- One part of settings, or its standard value. -/
def settingOf (parts : List (String × Tree)) (key : String) (read : Tree → Option α)
    (standard : α) : Except TreeError α :=
  match parts.lookup key with
  | none => .ok standard
  | some t => setting (read t)

end Tree

namespace Timespan

/-- A span of time as a tree. -/
def toTree (t : Timespan) : Tree :=
  .record [("secs", .int t.seconds), ("nanos", .int t.subNanos)]

/-- The span of time of a tree, which has seconds and nanoseconds and nothing else. -/
def ofTree? (t : Tree) : Option Timespan := do
  let parts ← (t.settingParts ["secs", "nanos"]).toOption
  if parts.length ≠ 2 then none
  let seconds ← (← parts.lookup "secs").naturalBelow UInt64.size
  let nanos ← (← parts.lookup "nanos").naturalBelow UInt32.size
  ofParts? seconds nanos

end Timespan

namespace ClientSettings

/-- Client settings as a tree. -/
def toTree (s : ClientSettings) : Tree :=
  .record
    [("connect_timeout", s.connectTimeout.toTree), ("call_timeout", s.callTimeout.toTree),
      ("max_connect_attempts", .int s.maxConnectAttempts), ("max_frame_size", .int s.maxFrameSize)]

/-- The client settings of a tree. -/
def ofTree (t : Tree) : Except TreeError ClientSettings := do
  let parts ← t.settingParts
    ["connect_timeout", "call_timeout", "max_connect_attempts", "max_frame_size"]
  let part {α : Type} := @Tree.settingOf α parts
  return {
    connectTimeout := ← part "connect_timeout" Timespan.ofTree? standard.connectTimeout
    callTimeout := ← part "call_timeout" Timespan.ofTree? standard.callTimeout
    maxConnectAttempts :=
      ← part "max_connect_attempts" (Tree.naturalBelow UInt32.size) standard.maxConnectAttempts
    maxFrameSize := ← part "max_frame_size" (Tree.naturalBelow UInt64.size) standard.maxFrameSize }

end ClientSettings

namespace ServerSettings

/-- Server settings as a tree. -/
def toTree (s : ServerSettings) : Tree :=
  .record
    [("keep_alive", s.keepAlive.toTree), ("scan_interval", s.scanInterval.toTree),
      ("max_frame_size", .int s.maxFrameSize)]

/-- The server settings of a tree. -/
def ofTree (t : Tree) : Except TreeError ServerSettings := do
  let parts ← t.settingParts ["keep_alive", "scan_interval", "max_frame_size"]
  let part {α : Type} := @Tree.settingOf α parts
  return {
    keepAlive := ← part "keep_alive" Timespan.ofTree? standard.keepAlive
    scanInterval := ← part "scan_interval" Timespan.ofTree? standard.scanInterval
    maxFrameSize := ← part "max_frame_size" (Tree.naturalBelow UInt64.size) standard.maxFrameSize }

end ServerSettings

namespace ComparatorPolicy

/-- A policy as a tree. -/
def toTree (p : ComparatorPolicy) : Tree :=
  .record
    [("allowed", .listOf Comparator.toTree p.allowed),
      ("trusted_custom", .listOf Tree.text p.trusted)]

/-- The policy of a tree. -/
def ofTree (t : Tree) : Except TreeError ComparatorPolicy := do
  let parts ← t.settingParts ["allowed", "trusted_custom"]
  let part {α : Type} := @Tree.settingOf α parts
  return {
    allowed := ← part "allowed" (fun u => (u.toList Comparator.ofTree).toOption) standard.allowed
    trusted := ← part "trusted_custom" (fun u => (u.toList Tree.toText).toOption) standard.trusted }

end ComparatorPolicy

namespace RegisteredClass

/-- A registered class as a tree. -/
def toTree (c : RegisteredClass) : Tree :=
  .record
    [("id", .int c.id), ("name", .text c.name),
      match c.shape with
      | .object fields => ("fields", .listOf Tree.text fields)
      | .enum variants => ("variants", .listOf Tree.text variants)]

/-- The class of a tree. -/
def ofTree (t : Tree) : Except TreeError RegisteredClass := do
  let id ← t.get "id" (Tree.toUnsigned 32)
  let name ← t.get "name" Tree.toText
  let names (key : String) : Except TreeError (List String) := t.get key (Tree.toList Tree.toText)
  if t.has "variants" then return ⟨id, name, .enum (← names "variants")⟩
  else return ⟨id, name, .object (← names "fields")⟩

end RegisteredClass

namespace Registry

/-- The registry of a tree: its classes, registered in order. -/
def ofTree (t : Tree) : Except TreeError Registry := do
  (ofClasses (← t.toList RegisteredClass.ofTree)).mapError TreeError.invalid

end Registry

namespace CodecSettings

/-- The codec settings of a tree. -/
def ofTree (t : Tree) : Except TreeError CodecSettings :=
  return {
    registry := ← t.getD "registry" Registry.ofTree standard.registry
    comparators := ← t.getD "comparators" ComparatorPolicy.ofTree standard.comparators
    maxDepth := ← t.getD "max_depth" (Tree.toUnsigned 64) standard.maxDepth }

end CodecSettings

end RemoteCall
