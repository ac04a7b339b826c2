import CallStacks.Frozen.Buffer
import CallStacks.Frozen.Delivery
import CallStacks.Frozen.Generation
import CallStacks.Frozen.Layout

/-!
Frozen frames. The frames of one suspended call stack form a chain from the innermost callee to
the outermost caller, which is the chain's head. Only heads are put on the ring of registered
chains.
-/

namespace CallStacks.Frozen

/-- A place on the ring of registered chains. -/
inductive RingNode where
  | anchor
  | head (handle : Handle)
  deriving DecidableEq, Repr

structure RingLinks where
  next : RingNode
  prev : RingNode
  deriving DecidableEq, Repr

structure FrozenFrame where
  buffer : Buffer
  layout : Layout
  /-- Where execution goes on. -/
  resumeAt : Word
  delivery : Delivery
  floor : Generation := Generation.youngest
  caller : Option Handle := none
  callee : Option Handle := none
  /-- Neighbours on the ring while the frame is registered. -/
  ring : Option RingLinks := none
  deriving DecidableEq, Repr

namespace FrozenFrame

/-- No caller is frozen with it. -/
def isHead (frame : FrozenFrame) : Bool := frame.caller.isNone

def isRegistered (frame : FrozenFrame) : Bool := frame.ring.isSome

/-- Where the frame's stack pointer falls in relation to its buffer. -/
def logicalSp (frame : FrozenFrame) : Word := frame.buffer.base - frame.layout.unrecorded.toUInt64

/-- Move the pointer at an offset from the stack pointer. -/
def relocate (frame : FrozenFrame) (offset : UInt32) (shift : Shift) :
    Except Refusal FrozenFrame := do
  let (buffer, _) ← frame.buffer.relocate (← frame.layout.bufferOffset offset) shift
  return { frame with buffer }

end FrozenFrame
end CallStacks.Frozen
