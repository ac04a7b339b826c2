import CallStacks.Green.Request
import CallStacks.Green.SegmentList
import CallStacks.Green.Settings

/-!
The green thread of an operating system thread: its segments, where it left the operating system's
stack, and on which of the two it runs. It enters a green stack, grows and shrinks it, may go back
to the operating system's stack for a call, and gives all segments back when it ends.
-/

namespace CallStacks.Green

/-- Where a thread left its operating system's stack. -/
structure OsSnapshot where
  range : StackRange
  /-- The lowest address in use. -/
  current : Word
  deriving DecidableEq, Repr

structure Thread where
  settings : Settings := {}
  segments : SegmentList := {}
  os : Option OsSnapshot := none
  /-- It runs on a green stack. -/
  green : Bool := false
  /-- It has left its green stack for a call on the operating system's. -/
  onOs : Bool := false
  deriving DecidableEq, Repr

/-- An operation on a green thread; a failure comes with the thread as it then is. -/
abbrev ThreadM := EStateM Failure Thread

namespace Thread

/-- The size of a segment that takes a call with the given stack arguments. -/
def segmentSize (thread : Thread) (argBytes : Word) (first : Bool) : Option Word :=
  let least := if first then thread.settings.initialSegment else thread.settings.minSegment
  ((Word.add? argBytes StubFrame.shadowStore).bind (Word.add? · stackAlign)).map (max least)

/-- The address lies in the segment in use. -/
def holds (thread : Thread) (addr : Word) : Bool :=
  thread.segments.current?.any (·.range.has addr)

/-- The address lies below what is in use of the operating system's stack. -/
def belowOs (thread : Thread) (addr : Word) : Bool := thread.os.any (addr < ·.current)

end Thread

/-- What a call on the operating system's stack keeps clear of: the stub's frame, its home area and
a word. -/
def osGap : Word := StubFrame.size + StubFrame.shadowStore + 8

namespace ThreadM

def refuse {α : Type} (refusal : Refusal) : ThreadM α := throw (.refused refusal)

/-- A result that must be in range. -/
def inRange {α : Type} : Option α → ThreadM α
  | some value => return value
  | none => throw (.stopped .overflow)

/-- Work on the segments. -/
def segments {α : Type} (operation : SegmentM α) : ThreadM α := fun thread =>
  match operation thread.segments with
  | .ok answer segments => .ok answer { thread with segments }
  | .error refusal segments => .error (.refused refusal) { thread with segments }

/-- Let no refusal through: inside this operation each ends the program. -/
def insisting {α : Type} (operation : ThreadM α) : ThreadM α := fun thread =>
  match operation thread with
  | .ok answer thread => .ok answer thread
  | .error failure thread => .error (.stopped failure.fault) thread

/-- The stack pointer and bounds for a call on the operating system's stack. -/
def switchToOs (argBytes : Word) : ThreadM (Word × StackRange) := do
  match (← get).os with
  | none => refuse .noOsStack
  | some os =>
    let need ← inRange (Word.add? osGap argBytes)
    match Word.sub? os.current need with
    | none => refuse .noOsStack
    | some sp => return (Word.alignDown sp stackAlign, os.range)

/-- The stack pointer and bounds for a call in a further segment. The first growth notes where the
operating system's stack was left. -/
def switchToSegment (place : Nat → Word) (argBytes stubSp : Word) (caller : StackRange) :
    ThreadM (Word × StackRange) := do
  let thread ← get
  let first := thread.segments.current?.isNone
  let size ← inRange (thread.segmentSize argBytes first)
  let segment ← segments (SegmentM.advance place size thread.settings.redZone)
  if first then
    let current ← inRange (Word.add? stubSp StubFrame.size)
    modify ({ · with os := some ⟨caller, current⟩ })
  let sp ← inRange (Word.sub? segment.base (argBytes + StubFrame.shadowStore))
  return (Word.alignDown sp stackAlign, segment.range)

/-- Answer a request for stack from a stub with stack pointer `stubSp`, whose caller runs on a stack
with the given bounds. -/
def allocate (place : Nat → Word) (request : Request) (stubSp : Word) (caller : StackRange) :
    ThreadM Switch := do
  let (sp, range) ← match request with
    | .os argBytes => switchToOs argBytes
    | .grow argBytes => switchToSegment place argBytes stubSp caller
  let argsFrom ← inRange (Word.add? stubSp StubFrame.argsAbove)
  let argsTo ← inRange (Word.add? sp StubFrame.shadowStore)
  return { sp, range, argsFrom, argsTo, argBytes := request.argBytes }

/-- Serve a stub: read the bounds it spilled, answer its request, tell it the new bounds and carry
its caller's arguments over. No refusal is let through. -/
def serve (place : Nat → Word) (size : Int32) (stubSp : Word) (memory : Memory) :
    ThreadM (Switch × Memory) := do
  let spilled ← inRange (Word.sub? stubSp StubFrame.oldRangeBelow)
  let caller : StackRange := ⟨memory.word spilled, memory.word (spilled + 8)⟩
  let switch ← insisting (allocate place (Request.decode size) stubSp caller)
  let told ← inRange (Word.sub? stubSp StubFrame.newRangeBelow)
  let memory := memory.writeWords told [switch.range.limit, switch.range.base]
  return (switch, switch.copyArguments memory)

/-- A call that grew the stack has returned: go back by a segment. Off the green stack there is
nothing to go back from. -/
def release : ThreadM Unit := do
  if (← get).green then discard (segments SegmentM.retreat)

def free : ThreadM Nat := do
  let thread ← get
  if thread.green || thread.onOs then refuse .inUse
  segments SegmentM.clear
  modify ({ · with os := none })
  return thread.segments.segments.length

/-- Give up whatever runs, with its segments. -/
def reset : ThreadM Unit := do
  modify ({ · with green := false, onOs := false })
  segments SegmentM.clear
  modify ({ · with os := none })

/-- Get ready to run on a green stack. Gives the stack pointer to start with. -/
def enterGreen (place : Nat → Word) : ThreadM Word := do
  let thread ← get
  if thread.green || thread.segments.current?.isSome then refuse .alreadyGreen
  let size ← inRange (thread.segmentSize 0 true)
  let segment ← segments (SegmentM.advance place size thread.settings.redZone)
  modify ({ · with green := true })
  return Word.alignDown segment.base stackAlign

/-- Note where the operating system's stack was left; how far it reaches down is not known. -/
def arriveGreen (savedSp : Word) : ThreadM Unit :=
  modify ({ · with os := some ⟨⟨0, savedSp⟩, savedSp⟩ })

/-- The function on the green stack has returned. -/
def leaveGreen : ThreadM Unit := do
  modify ({ · with green := false })
  discard (insisting free)

/-- Get ready for a call on the operating system's stack. Gives the stack pointer to start with, and
whether the thread was on such a call. -/
def enterOs : ThreadM (Word × Bool) := do
  let thread ← get
  if !thread.green then refuse .notGreen
  match thread.os with
  | none => refuse .noOsStack
  | some os =>
    match Word.sub? os.current osGap with
    | none => refuse .noOsStack
    | some sp =>
      set { thread with green := false, onOs := true }
      return (Word.alignDown sp stackAlign, thread.onOs)

/-- The call on the operating system's stack has returned. -/
def leaveOs (wasOnOs : Bool) : ThreadM Unit :=
  modify ({ · with green := true, onOs := wasOnOs })

end ThreadM
end CallStacks.Green
