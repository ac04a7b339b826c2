import CallStacks.Frozen.Store.Ring

/-!
Resuming a frozen frame. Its bytes go to a place on a running stack, its pointers and those of its
callers follow them, the return address is written and the value it waited for goes into the
integer register. What is left is to reload registers and jump.
-/

namespace CallStacks.Frozen

/-- Where a resumed frame lands, and what it finds in its registers. -/
structure Landing where
  sp : Word := 0
  returnAddress : Word := 0
  integerRegister : Word := 0
  resumeAt : Word := 0
  deriving DecidableEq, Repr

/-- A landing with the registers still to be filled in. -/
def Landing.to (sp returnAddress : Word) : Landing := { sp, returnAddress }

namespace FrozenFrame

/-- Where the frame's bytes go if its stack pointer is to be `sp`. -/
def destination (frame : FrozenFrame) (sp : Word) : Word := sp + frame.layout.unrecorded.toUInt64

def shiftTo (frame : FrozenFrame) (sp : Word) : Shift :=
  Shift.between frame.buffer.base (frame.destination sp) (UInt64.ofNat frame.buffer.size)

/-- Put the frame's bytes on the stack. Gives the registers to reload, the landing with what the
frame finds, and the memory. -/
def splice (frame : FrozenFrame) (value : ResumeValue) (landing : Landing) (memory : Memory) :
    Except Fault (List Reload × Landing × Memory) := do
  let memory := memory.write (frame.destination landing.sp) frame.buffer.bytes
  let slot ← Failure.ofOption .overflow
    (Word.add? landing.sp frame.layout.returnOffset.toUInt64)
  let memory := memory.writeWord slot landing.returnAddress
  let landing :=
    { landing with
      resumeAt := frame.resumeAt
      integerRegister := value.returned frame.delivery }
  if frame.layout.reloads.getLast?.any (·.tag.endsList) then
    return (frame.layout.reloads, landing, memory)
  else throw (.violated .openReloadList)

end FrozenFrame

namespace StoreM

def relocateInteriors (shift : Shift) (member : Handle × FrozenFrame) : StoreM Unit :=
  member.2.layout.interiors.forM fun slot =>
    tryFrame member.1 fun frame => Failure.ofRefusal (frame.relocate slot.offset shift)

/-- The frozen callers of a frame, nearest first. -/
def callersOf (frame : FrozenFrame) : StoreM (List (Handle × FrozenFrame)) :=
  match frame.caller with
  | none => return []
  | some caller => ask (·.path (·.caller) caller)

/-- Take a frame out of the store so that it can run with stack pointer `sp`. Its own pointers and
those of its frozen callers are moved along. If any of these frames has interior pointers, the
chain is active from then on. -/
def prepare (handle : Handle) (sp : Word) : StoreM FrozenFrame := do
  let head ← ask (·.chainHead handle)
  let members ← ask (·.chainMembers head)
  let frame ← ask (·.frame handle)
  let shift := frame.shiftTo sp
  relocateInteriors shift (handle, frame)
  let callers ← callersOf frame
  callers.forM (relocateInteriors shift)
  if frame.layout.hasInteriors || callers.any (·.2.layout.hasInteriors) then
    members.forM fun member => changeFrame member ({ · with floor := Generation.active })
  detach handle

end StoreM
end CallStacks.Frozen
