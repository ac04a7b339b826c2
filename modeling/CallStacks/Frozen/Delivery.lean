import CallStacks.Frozen.Failure

/-!
How the value that a call returns reaches a frame that is resumed.
-/

namespace CallStacks.Frozen

inductive ReturnShape where
  | returnBuffer
  | primitive
  | objectReference
  | structWithReferences
  | floatingPoint
  deriving DecidableEq, Repr

/-- The kind of value that the integer return register carries. -/
inductive Delivery where
  | integer
  | objectReference
  | byReference
  deriving DecidableEq, Repr

/-- A return buffer is delivered by its address, and a register-sized structure that holds
references as an object reference. Floating-point values have no register to travel in. -/
def ReturnShape.delivery : ReturnShape → Except Refusal Delivery
  | .returnBuffer => .ok .byReference
  | .objectReference | .structWithReferences => .ok .objectReference
  | .primitive => .ok .integer
  | .floatingPoint => .error .unsupportedReturn

/-- The value handed to a resumed frame. `integer` also carries the address of a return buffer. -/
structure ResumeValue where
  object : Word := 0
  integer : Word := 0
  deriving DecidableEq, Repr

namespace ResumeValue

def ofInteger (value : Word) : ResumeValue := ⟨0, value⟩

def ofObject (object : Word) : ResumeValue := ⟨object, 0⟩

/-- A result that is already in a buffer. -/
def ofBuffer (buffer : Word) : ResumeValue := ofInteger buffer

/-- What goes into the integer return register. -/
def returned (value : ResumeValue) : Delivery → Word
  | .objectReference => value.object
  | .integer | .byReference => value.integer

end ResumeValue
end CallStacks.Frozen
