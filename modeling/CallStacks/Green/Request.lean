import CallStacks.Green.Segment
import CallStacks.Memory

/-!
Requests for more stack, and the switches of stack that answer them. Requests come from a stub
whose frame has a fixed shape.
-/

namespace CallStacks.Green

namespace StubFrame

/-- The home area of register arguments. -/
def shadowStore : Word := 0x20

def size : Word := 0xe8

/-- From the stub's stack pointer up to its caller's stack arguments: past the return address, two
home areas and three words. -/
def argsAbove : Word := 0x60

/-- From the stub's stack pointer down to the range it spilled. -/
def oldRangeBelow : Word := 0x20

/-- From the stub's stack pointer down to the place of the new range. -/
def newRangeBelow : Word := 0x10

end StubFrame

/-- A wish for stack space, with the bytes of stack arguments to carry over. -/
inductive Request where
  /-- Go on in a green segment. -/
  | grow (argBytes : Word)
  /-- Go on on the operating system's stack. -/
  | os (argBytes : Word)
  deriving DecidableEq, Repr

namespace Request

/-- The request that a signed size stands for: the complement of a size asks for the operating
system's stack. -/
def decode (size : Int32) : Request :=
  if size < 0 then .os (UInt64.ofNat (-(size.toInt + 1)).toNat)
  else .grow (UInt64.ofNat size.toInt.toNat)

def argBytes : Request → Word
  | .grow argBytes | .os argBytes => argBytes

end Request

/-- Where execution goes on after a request. -/
structure Switch where
  sp : Word
  range : StackRange
  argsFrom : Word
  argsTo : Word
  argBytes : Word
  deriving DecidableEq, Repr

def Switch.copyArguments (switch : Switch) (memory : Memory) : Memory :=
  memory.copy switch.argsFrom switch.argsTo switch.argBytes.toNat

end CallStacks.Green
