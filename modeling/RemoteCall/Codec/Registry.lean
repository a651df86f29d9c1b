import RemoteCall.CodecError

/-!
# Registered classes

Both peers know the same user classes: objects with named fields and enums with named variants.
A class has a number and a name, both unique in its registry. On the wire the numbers stand above
those of the built-in classes.
-/

namespace RemoteCall

/-- The shape of a registered class. -/
inductive ClassShape
  | object (fields : List String)
  | enum (variants : List String)
  deriving DecidableEq

/-- A registered class. -/
structure RegisteredClass where
  /-- The number under which the class is registered. -/
  id : Nat
  name : String
  shape : ClassShape
  deriving DecidableEq

namespace RegisteredClass

/-- The wire number of the first user class. -/
def base : Nat := 64

/-- The number of the class on the wire. -/
def classId (c : RegisteredClass) : Nat := c.id + base

end RegisteredClass

/-- The classes that a peer knows, in the order of their numbers. -/
structure Registry where
  classes : List RegisteredClass

namespace Registry

/-- No classes. -/
def empty : Registry := ⟨[]⟩

/-- The class with a number. -/
def byId? (r : Registry) (id : Nat) : Option RegisteredClass := r.classes.find? (·.id == id)

/-- The class with a name. -/
def byName? (r : Registry) (name : String) : Option RegisteredClass :=
  r.classes.find? (·.name == name)

/-- The class with a number on the wire. -/
def byClassId (r : Registry) (classId : Nat) : Except CodecError RegisteredClass :=
  if RegisteredClass.base ≤ classId then
    match r.byId? (classId - RegisteredClass.base) with
    | some c => .ok c
    | none => .error (.unregisteredClassId classId)
  else .error (.unregisteredClassId classId)

/-- The number on the wire of the class with a name. -/
def classIdOf (r : Registry) (name : String) : Except CodecError Nat :=
  match r.byName? name with
  | some c => .ok c.classId
  | none => .error (.unregisteredType name)

/-- The classes with one more, before the first of a larger number. -/
def insertClass (c : RegisteredClass) : List RegisteredClass → List RegisteredClass
  | [] => [c]
  | d :: rest => if c.id < d.id then c :: d :: rest else d :: insertClass c rest

/-- A class that is inserted joins those that are there. -/
theorem mem_insertClass {c d : RegisteredClass} {classes : List RegisteredClass} :
    d ∈ insertClass c classes ↔ d = c ∨ d ∈ classes := by
  induction classes with
  | nil => simp [insertClass]
  | cons e rest ih => unfold insertClass; split <;> simp [ih]; grind

/-- Adds a class, or says why it cannot be added. Numbers must leave room for the built-in ones
below the 32-bit limit. -/
def register (r : Registry) (c : RegisteredClass) : Except CodecError Registry :=
  if c.shape = .enum [] then .error (.registry .noVariants)
  else if c.name = "" then .error (.registry .emptyName)
  else if UInt32.size ≤ RegisteredClass.base + c.id then .error (.registry (.idOutOfRange c.id))
  else if (r.byId? c.id).isSome then .error (.registry (.duplicateId c.id))
  else if (r.byName? c.name).isSome then .error (.registry (.duplicateName c.name))
  else .ok ⟨insertClass c r.classes⟩

/-- Adds classes in turn, up to the first that cannot be added. -/
def ofClasses (classes : List RegisteredClass) : Except CodecError Registry :=
  classes.foldlM register empty

end Registry

end RemoteCall
