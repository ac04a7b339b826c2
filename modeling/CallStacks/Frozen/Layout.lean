import CallStacks.Frozen.Failure

/-!
What is known about the bytes of a frozen frame: its extent, where its references are and which
registers to put back. Offsets count from the frame's stack pointer; the buffer starts
`unrecorded` bytes above it.
-/

namespace CallStacks.Frozen

structure InteriorSlot where
  offset : UInt32
  pinned : Bool
  deriving DecidableEq, Repr

namespace InteriorSlot

/-- One signed number for both fields: a pinned slot is the complement of its offset. -/
def encoded (slot : InteriorSlot) : Int32 :=
  if slot.pinned then ~~~slot.offset.toInt32 else slot.offset.toInt32

def ofEncoded (code : Int32) : InteriorSlot :=
  if code < 0 then ⟨(~~~code).toUInt32, true⟩ else ⟨code.toUInt32, false⟩

end InteriorSlot

/-- How the collector must treat a reference. -/
inductive RootKind where
  | precise
  | interior (pinned : Bool)
  deriving DecidableEq, Repr

structure Root where
  offset : UInt32
  kind : RootKind
  deriving DecidableEq, Repr

structure Layout where
  /-- Stack space the frame takes when it runs again. -/
  requirement : UInt32 := 0
  /-- Bytes between the stack pointer and the start of the buffer. -/
  unrecorded : UInt32 := 0
  /-- Bytes in the buffer. -/
  recorded : UInt32 := 0
  returnOffset : UInt32 := 0
  /-- Outgoing argument bytes at the end of the frame. -/
  argBytes : UInt32 := 0
  objects : List UInt32 := []
  interiors : List InteriorSlot := []
  reloads : List Reload := []
  deriving DecidableEq, Repr

namespace Layout

/-- The place in the buffer of an offset from the stack pointer. -/
def bufferOffset (layout : Layout) (offset : UInt32) : Except Refusal Nat :=
  if layout.unrecorded ≤ offset then .ok (offset - layout.unrecorded).toNat
  else .error (.outOfBounds offset.toNat 8 layout.recorded.toNat)

def hasInteriors (layout : Layout) : Bool := !layout.interiors.isEmpty

/-- Every recorded reference: object references in their order, then interior pointers. -/
def roots (layout : Layout) : List Root :=
  layout.objects.map (⟨·, .precise⟩) ++
    layout.interiors.map fun slot => ⟨slot.offset, .interior slot.pinned⟩

end Layout
end CallStacks.Frozen
