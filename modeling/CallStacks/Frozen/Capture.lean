import CallStacks.Frozen.LiveFrame
import CallStacks.Frozen.Store.Ring

/-!
Capture of a run of live frames. The walk goes from the innermost frame out. From the frame that
holds the mark on, each suspendable frame is copied into a buffer of its own, until a boundary
ends the run.

A pointer into the stack that is frozen has to follow what it points to. One that points below its
own frame is moved at once if a frame copied earlier covers it. One that points into its own frame
or above waits until its target has been copied. A pointer that still waits at the end points out
of the captured frames, and no capture can keep it.
-/

namespace CallStacks.Frozen

/-- What a capture works with. -/
structure CaptureContext where
  memory : Memory
  /-- The address at which each buffer of the capture will live, by the order of capture. -/
  place : Nat → Word
  /-- Outgoing argument bytes that are copied even if the callee takes fewer. -/
  minArgBytes : UInt32
  /-- The end of the stack above which no pointer is followed. -/
  limit : Word

/-- A register of a frame, and the place of its saved value if the frame saved it. -/
structure SavedRegister where
  register : Register
  slots : RegisterSlots
  offset : Option UInt32
  deriving DecidableEq, Repr

/-- An interior pointer whose target has not been copied, by frame and place in the buffer. -/
structure Waiting where
  frame : Nat
  offset : Nat
  deriving DecidableEq, Repr

/-- A copied frame, and where its bytes went. -/
structure Copied where
  frame : FrozenFrame
  shift : Shift
  deriving DecidableEq, Repr

/-- A capture under way: the frames copied so far, innermost first, and the pointers that wait. -/
structure Capture where
  copied : Array Copied := #[]
  waiting : List Waiting := []

namespace LiveFrame

/-- The distance of an address from the frame's stack pointer. -/
def offsetOf (frame : LiveFrame) (addr : Word) : Except Fault UInt32 :=
  if frame.sp ≤ addr ∧ (addr - frame.sp).toNat < UInt32.size then .ok (addr - frame.sp).toUInt32
  else .error (.violated (.belowFrame addr frame.sp))

def copiedArgs (frame : LiveFrame) (context : CaptureContext) : UInt32 :=
  max frame.argBytes context.minArgBytes

/-- The number of bytes to copy: from the stack pointer to the end of the arguments. -/
def extent (frame : LiveFrame) (context : CaptureContext) : Except Fault UInt32 :=
  match Word.add? frame.callerSp (frame.copiedArgs context).toUInt64 with
  | none => .error (.violated (.unexpected (.invalidExtent frame.sp (-1))))
  | some stop =>
    if frame.sp ≤ frame.callerSp ∧ (stop - frame.sp).toNat < UInt32.size then
      .ok (stop - frame.sp).toUInt32
    else .error (.violated (.unexpected (.invalidExtent frame.sp stop)))

/-- The stack space that the frame takes when it runs again. -/
def requirement (frame : LiveFrame) (context : CaptureContext) : Except Fault UInt32 :=
  let body := (frame.callerSp - frame.sp).toUInt32
  let args := frame.copiedArgs context
  if body.toNat + args.toNat < UInt32.size then .ok (body + args) else .error .overflow

/-- Find which of some registers the frame has, and lay the current value of those it saved over
the caller's value in the copy. -/
def saveRegisters (frame : LiveFrame) :
    List Register → Buffer → Except Fault (List SavedRegister × Buffer)
  | [], buffer => return ([], buffer)
  | register :: rest, buffer =>
    match frame.registers register with
    | none => frame.saveRegisters rest buffer
    | some slots =>
      if slots.isSaved then do
        let offset ← frame.offsetOf slots.callerLocation
        let value := (LittleEndian.encode register.width slots.value.toNat).toArray
        let buffer ← insist (buffer.writeBytes offset.toNat value)
        let (saved, buffer) ← frame.saveRegisters rest buffer
        return (⟨register, slots, some offset⟩ :: saved, buffer)
      else do
        let (saved, buffer) ← frame.saveRegisters rest buffer
        return (⟨register, slots, none⟩ :: saved, buffer)

end LiveFrame

namespace SavedRegister

def isFramePointer (saved : SavedRegister) : Bool :=
  saved.register = .rbp && saved.offset.isSome

/-- The reload list for some registers: those that were saved, then the end tag. -/
def reloads (registers : List SavedRegister) : List Reload :=
  registers.filterMap (fun saved => saved.offset.map (⟨.saved saved.register, ·⟩)) ++
    [⟨if registers.any isFramePointer then .lastWithFramePointer else .lastWithoutFramePointer, 0⟩]

/-- A saved frame pointer points into its own frame. -/
def frameReferences (registers : List SavedRegister) : List Reference :=
  (registers.filter isFramePointer).map (⟨·.slots.callerLocation, true, false⟩)

/-- The place of a reference in a frame. A reference in a register is where the frame saved that
register. -/
def offsetOf (registers : List SavedRegister) (frame : LiveFrame) (location : Word) :
    Except Fault UInt32 :=
  match registers.find? (·.slots.currentLocation = location) with
  | some ⟨_, _, some offset⟩ => .ok offset
  | some ⟨register, _, none⟩ => .error (.violated (.unsavedReference register frame.sp))
  | none => frame.offsetOf location

end SavedRegister

/-- The references of a frame as they are recorded. -/
structure References where
  buffer : Buffer
  objects : List UInt32 := []
  interiors : List InteriorSlot := []
  /-- Places in the buffer of pointers that have to wait. -/
  waiting : List Nat := []

namespace References

/-- Record a reference. An interior pointer below the frame goes where a frame copied earlier went,
if one covers it. -/
def record (context : CaptureContext) (earlier : List Shift) (frame : LiveFrame)
    (registers : List SavedRegister) (known : References) (reference : Reference) :
    Except Fault References := do
  if reference.pinned && !reference.interior then
    throw (.violated (.pinnedObject reference.location))
  let offset ← SavedRegister.offsetOf registers frame reference.location
  if !reference.interior then
    return { known with objects := known.objects ++ [offset] }
  let interiors := known.interiors ++ [⟨offset, reference.pinned⟩]
  let target ← insist (known.buffer.read offset.toNat)
  if frame.sp ≤ target && target < context.limit then
    return { known with interiors, waiting := known.waiting ++ [offset.toNat] }
  match earlier.findSome? (·.move? target) with
  | some moved => return { known with interiors, buffer := ← insist (known.buffer.write offset.toNat moved) }
  | none => return { known with interiors }

end References

namespace Capture

/-- Where the frames copied so far went, innermost first. -/
def shifts (capture : Capture) : List Shift := capture.copied.toList.map (·.shift)

/-- A copy of a frame with all that is known about it, its address range, and the places of the
pointers that have to wait. The frames copied before it have made the moves given. -/
def freeze (context : CaptureContext) (earlier : List Shift) (frame : LiveFrame) :
    Except Fault (Copied × List Nat) := do
  let size ← frame.extent context
  let base := context.place earlier.length
  let copy := Buffer.copyOf base context.memory frame.sp size.toNat
  let requirement ← frame.requirement context
  let returnOffset ← frame.offsetOf frame.returnSlot
  let (registers, buffer) ← frame.saveRegisters Register.all copy
  if frame.collects then throw .collectingInCapture
  let known ← (frame.references ++ SavedRegister.frameReferences registers).foldlM
    (References.record context earlier frame registers) { buffer }
  let delivery ← insist frame.returns.delivery
  let layout : Layout :=
    { requirement
      recorded := size
      returnOffset
      argBytes := frame.copiedArgs context
      objects := known.objects
      interiors := known.interiors
      reloads := SavedRegister.reloads registers }
  return (⟨{ buffer := known.buffer, layout, resumeAt := frame.pc, delivery },
    Shift.between frame.sp base size.toUInt64⟩, known.waiting)

/-- Move those of some waiting pointers that point into a range just copied. Gives the others. -/
def settle (shift : Shift) : List Waiting → Array Copied →
    Except Fault (List Waiting × Array Copied)
  | [], copied => return ([], copied)
  | pointer :: rest, copied =>
    match copied[pointer.frame]? with
    | none => throw .impossible
    | some owner => do
      let (buffer, moved) ← insist (owner.frame.buffer.relocate pointer.offset shift)
      let (waiting, copied) ← settle shift rest
        (copied.setIfInBounds pointer.frame { owner with frame := { owner.frame with buffer } })
      return (if moved then waiting else pointer :: waiting, copied)

def add (context : CaptureContext) (capture : Capture) (frame : LiveFrame) :
    Except Fault Capture := do
  let (copy, places) ← freeze context capture.shifts frame
  let waiting := capture.waiting ++ places.map (⟨capture.copied.size, ·⟩)
  let (waiting, copied) ← settle copy.shift waiting (capture.copied.push copy)
  return { copied, waiting }

/-- The run has ended: no pointer may wait any longer. -/
def finish (capture : Capture) : Except Fault Unit :=
  if capture.waiting.isEmpty then .ok ()
  else .error (.violated (.escaping capture.waiting.length))

def hasStarted (capture : Capture) : Bool := !capture.copied.isEmpty

/-- Walk the frames, innermost first. Gives the number of frames visited and the capture. -/
def walk (context : CaptureContext) : Capture → List LiveFrame → Except Fault (Nat × Capture)
  | capture, [] => do
    capture.finish
    return (0, capture)
  | capture, frame :: rest =>
    if !capture.hasStarted && !(frame.kind = .suspendable && frame.holdsMark) then do
      let (count, capture) ← walk context capture rest
      return (count + 1, capture)
    else match frame.kind with
      | .suspendable => do
        let (count, capture) ← walk context (← capture.add context frame) rest
        return (count + 1, capture)
      | .boundary => do
        capture.finish
        return (1, capture)
      | .foreign => throw (.violated (.strayFrame frame.sp))

def frames (capture : Capture) : List FrozenFrame := capture.copied.toList.map (·.frame)

end Capture

structure Chain where
  innermost : Handle
  head : Handle
  size : Nat
  deriving DecidableEq, Repr

/-- The chain of some handles, innermost first. -/
def Chain.of? (handles : List Handle) : Option Chain :=
  match handles.head?, handles.getLast? with
  | some innermost, some head => some ⟨innermost, head, handles.length⟩
  | _, _ => none

namespace StoreM

def join (callee caller : Handle) : StoreM Unit := do
  changeFrame callee ({ · with caller := some caller })
  changeFrame caller ({ · with callee := some callee })

/-- Make frames, innermost first, one chain. -/
def joinAll : List Handle → StoreM Unit
  | callee :: caller :: rest => do
    join callee caller
    joinAll (caller :: rest)
  | _ => return

/-- Put frames, innermost first, into the arena as one chain. -/
def install (frames : List FrozenFrame) : StoreM (Option Chain) := insisting do
  let handles ← frames.mapM insert
  joinAll handles
  return Chain.of? handles

end StoreM
end CallStacks.Frozen
