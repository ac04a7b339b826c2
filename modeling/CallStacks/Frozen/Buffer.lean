import CallStacks.Frozen.Failure
import CallStacks.Frozen.Shift

/-!
Buffers that own a copy of a frame's stack bytes. Every access names a byte range by its offset
from the start of the buffer, with no alignment asked for. An access outside the buffer is
refused and changes nothing; a write changes its own range and never the length.
-/

namespace CallStacks.Frozen

/-- The bytes of a frame, and the address at which the copy lives. -/
structure Buffer where
  base : Word
  bytes : Array UInt8
  deriving DecidableEq, Repr

namespace Buffer

def zeroed (base : Word) (size : Nat) : Buffer := ⟨base, Array.replicate size 0⟩

/-- A copy of the memory from an address upwards. -/
def copyOf (base : Word) (memory : Memory) (start : Word) (size : Nat) : Buffer :=
  ⟨base, (memory.bytes start size).toArray⟩

def size (buffer : Buffer) : Nat := buffer.bytes.size

/-- The range of `width` bytes at `offset` lies inside the buffer. -/
def holds (buffer : Buffer) (offset width : Nat) : Bool := offset + width ≤ buffer.size

def check (buffer : Buffer) (offset width : Nat) : Except Refusal Unit :=
  if buffer.holds offset width then .ok () else .error (.outOfBounds offset width buffer.size)

def read (buffer : Buffer) (offset : Nat) : Except Refusal Word := do
  buffer.check offset 8
  return Word.ofBytes ((buffer.bytes.extract offset (offset + 8)).toList)

/-- The same buffer with a block laid over the bytes from an offset upwards. -/
def overlay (buffer : Buffer) (offset : Nat) (block : Array UInt8) : Buffer :=
  { buffer with
    bytes := buffer.bytes.mapIdx fun i byte =>
      if offset ≤ i then block.getD (i - offset) byte else byte }

def writeBytes (buffer : Buffer) (offset : Nat) (block : Array UInt8) : Except Refusal Buffer := do
  buffer.check offset block.size
  return buffer.overlay offset block

def write (buffer : Buffer) (offset : Nat) (value : Word) : Except Refusal Buffer :=
  buffer.writeBytes offset (Word.toBytes value).toArray

/-- The address of the word at an offset. -/
def slot (buffer : Buffer) (offset : Nat) : Except Refusal Word := do
  buffer.check offset 8
  return buffer.base + UInt64.ofNat offset

/-- Move the pointer stored at an offset, if it points into the old range of a shift. The flag
tells whether it did. -/
def relocate (buffer : Buffer) (offset : Nat) (shift : Shift) : Except Refusal (Buffer × Bool) := do
  match shift.move? (← buffer.read offset) with
  | some moved => return (← buffer.write offset moved, true)
  | none => return (buffer, false)

/-- How diagnostics show a buffer; the base is given as text. -/
def text (buffer : Buffer) (base : String) : String :=
  s!"StackData \x7b base: {base}, len: {buffer.size} \x7d"

@[simp] theorem size_overlay (buffer : Buffer) (offset : Nat) (block : Array UInt8) :
    (buffer.overlay offset block).size = buffer.size := by simp [overlay, size]

@[simp] theorem base_overlay (buffer : Buffer) (offset : Nat) (block : Array UInt8) :
    (buffer.overlay offset block).base = buffer.base := rfl

theorem getElem?_overlay (buffer : Buffer) (offset : Nat) (block : Array UInt8) (i : Nat) :
    (buffer.overlay offset block).bytes[i]? =
      buffer.bytes[i]?.map fun byte =>
        if offset ≤ i then block.getD (i - offset) byte else byte := by
  simp [overlay]

theorem check_eq_ok_iff (buffer : Buffer) (offset width : Nat) :
    buffer.check offset width = .ok () ↔ offset + width ≤ buffer.size := by
  simp [check, holds]

/-- Reading succeeds exactly inside the buffer. -/
theorem read_eq_ok_iff (buffer : Buffer) (offset : Nat) (value : Word) :
    buffer.read offset = .ok value ↔
      offset + 8 ≤ buffer.size ∧
        value = Word.ofBytes (buffer.bytes.extract offset (offset + 8)).toList := by
  by_cases inside : offset + 8 ≤ buffer.size
  · simp [read, check, holds, inside, bind, Except.bind, pure, Except.pure, eq_comm]
  · simp [read, check, holds, inside, bind, Except.bind]

/-- Writing succeeds exactly inside the buffer, and lays the block over it. -/
theorem writeBytes_eq_ok_iff (buffer after : Buffer) (offset : Nat) (block : Array UInt8) :
    buffer.writeBytes offset block = .ok after ↔
      offset + block.size ≤ buffer.size ∧ after = buffer.overlay offset block := by
  by_cases inside : offset + block.size ≤ buffer.size
  · simp [writeBytes, check, holds, inside, bind, Except.bind, pure, Except.pure, eq_comm]
  · simp [writeBytes, check, holds, inside, bind, Except.bind]

end Buffer
end CallStacks.Frozen
