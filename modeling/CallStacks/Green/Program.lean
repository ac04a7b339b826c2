import CallStacks.Green.Thread

/-!
Programs that run on green stacks: sequences of operations on the thread, with functions nested in
them that run on a green stack or on the operating system's. A run leaves a trace of what was
answered at which depth of nesting, with the state after each answer; the trace outlives a stop.
-/

namespace CallStacks.Green

/-- Something a running function does or asks. -/
inductive Operation where
  /-- Ask for stack, and carry the arguments over if told to. -/
  | allocate (request : Request) (stubSp : Word) (caller : StackRange) (copies : Bool)
  /-- Let a stub be served. -/
  | serve (size : Int32) (stubSp : Word)
  | release
  /-- Release with no refusal let through. -/
  | mustRelease
  | free
  | reset
  | write (start : Word) (words : List Word)
  | read (start : Word) (count : Nat)
  | isGreen
  | settings

/-- What switches stacks. -/
inductive Trampoline where
  /-- It notes a stack pointer as the one left, and calls on the stack it is on. -/
  | recording (savedSp : Word)
  /-- It leaves a stack at the given stack pointer, and calls on the stack it is told. -/
  | native (ownSp : Word)
  deriving DecidableEq, Repr

namespace Trampoline

/-- The stack pointer noted as the one left. -/
def savedSp : Trampoline → Word
  | .recording sp | .native sp => sp

def isNative : Trampoline → Bool
  | .recording _ => false
  | .native _ => true

/-- The stack pointer with which a function is entered, where it is known: below the return
address. -/
def entrySp? (stack : Word) : Trampoline → Option Word
  | .recording _ => none
  | .native _ => some (stack - 8)

end Trampoline

/-- A call of a function on another stack. Without a result of its own the function returns the
successor of its parameter. -/
structure Call where
  param : Word
  result : Option Word
  trampoline : Trampoline
  deriving DecidableEq, Repr

def Call.returned (call : Call) : Word := call.result.getD (call.param + 1)

inductive Program where
  | done
  | perform (operation : Operation) (next : Program)
  | enterGreen (call : Call) (body next : Program)
  | enterOs (call : Call) (body next : Program)

/-- What was answered. -/
inductive Reply where
  | done
  | refused (refusal : Refusal)
  /-- The flag tells whether the arguments were carried over. -/
  | switched (switch : Switch) (copied : Bool)
  | served (size : Int32) (stubSp : Word) (switch : Switch)
  | freed (count : Nat)
  | words (words : List Word)
  | flag (value : Bool)
  | settings (settings : Settings)
  /-- A function is about to be called on a stack. -/
  | stack (sp : Word)
  /-- A function has been entered. -/
  | entered (param : Word) (green : Bool) (sp : Option Word)
  | returned (value : Word)

/-- What programs work on. -/
structure World where
  memory : Memory := Memory.blank
  thread : Thread := {}
  /-- A native trampoline has been used, so that places on the operating system's stack are the
  machine's own. -/
  nativeOs : Bool := false

/-- An answer, the depth at which it was given, and the state after it. -/
structure Event where
  depth : Nat
  reply : Reply
  world : World

/-- A run: the state and the trace so far. -/
structure Run where
  world : World
  trace : Array Event := #[]

abbrev RunM := EStateM Fault Run

namespace RunM

def answer (depth : Nat) (reply : Reply) : RunM Unit :=
  modify fun run => { run with trace := run.trace.push ⟨depth, reply, run.world⟩ }

/-- Work on the thread, with a refusal as one of two outcomes. -/
def attempt {α : Type} (operation : ThreadM α) : RunM (Except Refusal α) := fun run =>
  match operation run.world.thread with
  | .ok value thread => .ok (.ok value) { run with world := { run.world with thread } }
  | .error (.refused refusal) thread =>
    .ok (.error refusal) { run with world := { run.world with thread } }
  | .error (.stopped fault) thread =>
    .error fault { run with world := { run.world with thread } }

/-- Work on the thread and answer with what comes of it. -/
def tell {α : Type} (depth : Nat) (operation : ThreadM α) (reply : α → Reply) : RunM Unit := do
  match ← attempt operation with
  | .ok value => answer depth (reply value)
  | .error refusal => answer depth (.refused refusal)

def setMemory (memory : Memory) : RunM Unit :=
  modify fun run => { run with world := { run.world with memory } }

end RunM

open RunM

def Operation.run (place : Nat → Word) (depth : Nat) : Operation → RunM Unit
  | .allocate request stubSp caller copies => do
    match ← attempt (ThreadM.allocate place request stubSp caller) with
    | .ok switch =>
      if copies then setMemory (switch.copyArguments (← get).world.memory)
      answer depth (.switched switch copies)
    | .error refusal => answer depth (.refused refusal)
  | .serve size stubSp => do
    match ← attempt (ThreadM.serve place size stubSp (← get).world.memory) with
    | .ok (switch, memory) =>
      setMemory memory
      answer depth (.served size stubSp switch)
    | .error refusal => answer depth (.refused refusal)
  | .release => tell depth ThreadM.release fun _ => .done
  | .mustRelease => tell depth (ThreadM.insisting ThreadM.release) fun _ => .done
  | .free => tell depth ThreadM.free .freed
  | .reset => tell depth ThreadM.reset fun _ => .done
  | .write start words => do
    setMemory ((← get).world.memory.writeWords start words)
    answer depth .done
  | .read start count => do
    answer depth (.words ((← get).world.memory.words start count))
  | .isGreen => do answer depth (.flag (← get).world.thread.green)
  | .settings => do answer depth (.settings (← get).world.thread.settings)

/-- Note that the trampoline of a call is put to use. -/
def Call.board (call : Call) : RunM Unit :=
  modify fun run =>
    { run with world.nativeOs := run.world.nativeOs || call.trampoline.isNative }

/-- Tell the stack that a recording trampoline is given; a native one just goes there. -/
def Call.tellStack (call : Call) (depth : Nat) (stack : Word) : RunM Unit := do
  if !call.trampoline.isNative then answer depth (.stack stack)

/-- Tell that the function has been entered. -/
def Call.tellEntry (call : Call) (depth : Nat) (stack : Word) : RunM Unit := do
  answer (depth + 1)
    (.entered call.param (← get).world.thread.green (call.trampoline.entrySp? stack))

/-- Run a program at a depth of nesting. -/
def Program.run (place : Nat → Word) : Program → Nat → RunM Unit
  | .done, _ => return
  | .perform operation next, depth => do
    operation.run place depth
    next.run place depth
  | .enterGreen call body next, depth => do
    call.board
    match ← attempt (ThreadM.enterGreen place) with
    | .error refusal => answer depth (.refused refusal)
    | .ok stack =>
      call.tellStack depth stack
      discard (attempt (ThreadM.arriveGreen call.trampoline.savedSp))
      call.tellEntry depth stack
      body.run place (depth + 1)
      discard (attempt ThreadM.leaveGreen)
      answer depth (.returned call.returned)
    next.run place depth
  | .enterOs call body next, depth => do
    call.board
    match ← attempt ThreadM.enterOs with
    | .error refusal => answer depth (.refused refusal)
    | .ok (stack, wasOnOs) =>
      call.tellStack depth stack
      call.tellEntry depth stack
      body.run place (depth + 1)
      discard (attempt (ThreadM.leaveOs wasOnOs))
      answer depth (.returned call.returned)
    next.run place depth

end CallStacks.Green
