import CallStacks.Frozen.Delivery
import CallStacks.Frozen.Register

/-!
Frames of a running stack as a stack walk shows them, innermost first: where they lie, where the
registers they saved are, what they return and which of their slots hold references.
-/

namespace CallStacks.Frozen

/-- How a frame stands to suspension. -/
inductive FrameKind where
  /-- A method that can be suspended. -/
  | suspendable
  /-- A thunk that ends a run of suspendable frames. -/
  | boundary
  /-- No method at all. -/
  | foreign
  deriving DecidableEq, Repr

/-- Where a register is kept. -/
structure RegisterSlots where
  callerLocation : Word
  currentLocation : Word
  /-- The current value, of which the low bytes count. -/
  value : BitVec 128
  deriving DecidableEq, Repr

/-- The frame saved the register in its own memory: its caller's value is kept apart. -/
def RegisterSlots.isSaved (slots : RegisterSlots) : Bool :=
  slots.callerLocation != slots.currentLocation

/-- A live reference, by the place that holds it. -/
structure Reference where
  location : Word
  interior : Bool
  pinned : Bool
  deriving DecidableEq, Repr

structure LiveFrame where
  kind : FrameKind := .suspendable
  /-- It holds the mark from which a capture starts. -/
  holdsMark : Bool
  sp : Word
  callerSp : Word
  argBytes : UInt32 := 0
  pc : Word := 0
  returnSlot : Word
  registers : Register → Option RegisterSlots := fun _ => none
  references : List Reference := []
  /-- Telling the references sets off a collection first. -/
  collects : Bool := false
  returns : ReturnShape := .primitive

end CallStacks.Frozen
