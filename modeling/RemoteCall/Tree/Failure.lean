import RemoteCall.CallError
import RemoteCall.Tree.Basic

/-!
# Failures as trees

A failure is a record with the name of its kind and its wording; an outcome is the result in a
record of its own, or the failure. A failure of the codec inside of another keeps both names.
-/

namespace RemoteCall

/-- A failure of a kind. -/
def Tree.failure (kind wording : String) : Tree :=
  .record [("error", .text kind), ("message", .text wording)]

/-- An outcome. -/
def Tree.outcome (failed : ε → Tree) (done : α → Tree) : Except ε α → Tree
  | .ok a => .record [("ok", done a)]
  | .error e => failed e

namespace CodecError

/-- The name of the kind of a failure. -/
def kind : CodecError → String
  | unexpectedEnd _ => "UnexpectedEof"
  | malformedVarint => "MalformedVarint"
  | invalidUtf8 => "InvalidUtf8"
  | sizeOutOfBounds _ _ => "SizeOutOfBounds"
  | trailingBytes _ => "TrailingBytes"
  | depthExceeded _ => "DepthExceeded"
  | unregisteredClassId _ => "UnregisteredClassId"
  | unregisteredType _ => "UnregisteredType"
  | unexpectedClass _ _ => "UnexpectedClass"
  | invalidValue _ _ => "InvalidValue"
  | fieldCount _ _ _ => "FieldCount"
  | invalidPrimitive _ => "InvalidPrimitive"
  | typeMismatch _ _ => "TypeMismatch"
  | invalidReference _ => "InvalidReference"
  | cyclicReference _ => "CyclicReference"
  | comparatorRefused _ => "ComparatorRefused"
  | registry _ => "Registry"

/-- A failure of the codec as a tree. -/
def toTree (e : CodecError) : Tree := .failure e.kind e.message

end CodecError

namespace CallError

/-- The name of the kind of a failure. -/
def kind : CallError → String
  | transport _ => "Transport"
  | io _ => "Io"
  | connection _ => "Connection"
  | connectionClosed _ => "ConnectionClosed"
  | protocol _ => "Protocol"
  | badMagic _ => "BadMagic"
  | frameTooLarge _ _ => "FrameTooLarge"
  | codec cause => "Codec." ++ cause.kind
  | timeout _ => "Timeout"
  | duplicateRequestId _ => "DuplicateRequestId"
  | remote _ _ => "Remote"
  | invalidResponse _ => "InvalidResponse"
  | connectAttemptsExceeded _ => "ConnectAttemptsExceeded"
  | alreadyClosed _ => "AlreadyClosed"
  | invalidConfig _ => "InvalidConfig"

/-- A failure as a tree. -/
def toTree (e : CallError) : Tree := .failure e.kind e.message

end CallError

end RemoteCall
