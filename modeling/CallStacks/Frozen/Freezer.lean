import CallStacks.Frozen.Capture
import CallStacks.Frozen.Collector
import CallStacks.Frozen.Resume
import CallStacks.Frozen.Settings

/-!
The freezer: it owns the suspended chains of a program and counts what becomes of them. Everything
the program does with frozen frames goes through the operations here. Those that change chains
take every refusal of the store for a broken invariant; those that only look hand it on.
-/

namespace CallStacks.Frozen

structure Freezer where
  settings : Settings := {}
  store : Store := {}
  /-- Open scopes in which the collector must not run. -/
  quietScopes : Nat := 0
  captured : UInt64 := 0
  restored : UInt64 := 0
  deleted : UInt64 := 0

structure Statistics where
  registered : Nat
  live : Nat
  /-- Bytes in the buffers of live frames. -/
  retained : Nat
  captured : UInt64
  restored : UInt64
  deleted : UInt64
  deriving DecidableEq, Repr

/-- How diagnostics show the counts. -/
def Statistics.text (s : Statistics) : String :=
  "TaskletStats \x7b registered_chains: " ++ toString s.registered ++
    ", live_tasklets: " ++ toString s.live ++ ", retained_bytes: " ++ toString s.retained ++
    ", frames_captured: " ++ toString s.captured ++
    ", frames_restored: " ++ toString s.restored ++
    ", tasklets_deleted: " ++ toString s.deleted ++ " \x7d"

namespace Freezer

/-- Run an operation on the store, with refusals as broken invariants. -/
def run {α : Type} (freezer : Freezer) (operation : StoreM α) : Except Failure (α × Freezer) :=
  match (StoreM.insisting operation) freezer.store with
  | .ok answer store => .ok (answer, { freezer with store })
  | .error failure _ => .error failure

/-- Refuse to collect inside a scope in which the collector must not run. -/
def collecting {α : Type} (freezer : Freezer) (answer : Except Failure α) : Except Failure α :=
  if freezer.quietScopes = 0 then answer else .error (.stopped .collectingInCapture)

/-- Open a scope in which the collector must not run. -/
def enterQuietScope (freezer : Freezer) : Freezer :=
  { freezer with quietScopes := freezer.quietScopes + 1 }

def leaveQuietScope (freezer : Freezer) : Freezer :=
  { freezer with quietScopes := freezer.quietScopes - 1 }

/-- Freeze the frames from the one that holds the mark up to the next boundary, on a new chain that
is not registered. Gives the number of frames visited, and no chain if the walk has not met the
mark. -/
def capture (freezer : Freezer) (memory : Memory) (place : Nat → Word) (frames : List LiveFrame)
    (limit : Word) : Except Failure ((Nat × Option Chain) × Freezer) := do
  let context : CaptureContext :=
    { memory, place, minArgBytes := freezer.settings.minArgBytes, limit }
  let (visited, capture) ← Failure.ofStop (Capture.walk context {} frames)
  let (chain, freezer) ← freezer.run (StoreM.install capture.frames)
  match chain with
  | none => return ((visited, none), freezer)
  | some chain =>
    return ((visited, some chain),
      { freezer with captured := freezer.captured + UInt64.ofNat chain.size })

/-- Show a chain to the collector. -/
def register (freezer : Freezer) (head : Handle) : Except Failure Freezer := do
  return (← freezer.run (StoreM.register head)).2

/-- Hide a chain from the collector. -/
def unregister (freezer : Freezer) (head : Handle) : Except Failure Freezer := do
  return (← freezer.run (StoreM.unregister head)).2

def chainHead (freezer : Freezer) (handle : Handle) : Except Failure Handle :=
  freezer.store.chainHead handle

def chainMembers (freezer : Freezer) (head : Handle) : Except Failure (List Handle) :=
  freezer.store.chainMembers head

def isRegistered (freezer : Freezer) (head : Handle) : Except Failure Bool := do
  return (← freezer.store.frame head).isRegistered

def frame (freezer : Freezer) (handle : Handle) : Except Failure FrozenFrame :=
  freezer.store.frame handle

def delete (freezer : Freezer) (handle : Handle) : Except Failure Freezer := do
  let (_, freezer) ← freezer.run (StoreM.detach handle)
  return { freezer with deleted := freezer.deleted + 1 }

/-- Drop a whole chain, innermost frame first. Gives the number of frames dropped. -/
def deleteChain (freezer : Freezer) (head : Handle) : Except Failure (Nat × Freezer) := do
  let (count, freezer) ← freezer.run do
    let members ← StoreM.ask (·.chainMembers head)
    members.reverse.forM fun member => discard (StoreM.detach member)
    return members.length
  return (count, { freezer with deleted := freezer.deleted + UInt64.ofNat count })

/-- What a resumed frame needs to run. -/
structure Resumption where
  reloads : List Reload
  landing : Landing
  memory : Memory

/-- Put a frame back onto a stack, at the landing's stack pointer. The frame is consumed. -/
def resume (freezer : Freezer) (handle : Handle) (value : ResumeValue) (landing : Landing)
    (memory : Memory) : Except Failure (Resumption × Freezer) := do
  let (frame, freezer) ← freezer.run (StoreM.prepare handle landing.sp)
  let (reloads, landing, memory) ← Failure.ofStop (frame.splice value landing memory)
  return (⟨reloads, landing, memory⟩, { freezer with restored := freezer.restored + 1 })

/-- Visit the root slots of every registered chain that may refer to a condemned generation. Gives
the number of slots and the visitor's state. -/
def collect {σ : Type} (freezer : Freezer) (visit : Visitor σ) (condemned : Generation)
    (state : σ) : Except Failure ((Nat × σ) × Freezer) :=
  freezer.collecting (freezer.run (visit.chains condemned state))

/-- Raise floors after a collection of `condemned`, if floors are kept at all. -/
def age (freezer : Freezer) (condemned oldest : Generation) : Except Failure Freezer :=
  if freezer.settings.aging then freezer.collecting do
    return (← freezer.run (StoreM.age condemned oldest)).2
  else .ok freezer

/-- Lower floors before a collection of `condemned`, if floors are kept at all. -/
def rejuvenate (freezer : Freezer) (heap : Word → Generation) (condemned oldest : Generation) :
    Except Failure (Rejuvenation × Freezer) :=
  if freezer.settings.aging then
    freezer.collecting (freezer.run (StoreM.rejuvenate heap condemned oldest))
  else .ok ({}, freezer)

def verify (freezer : Freezer) : Except Failure Unit := freezer.store.verify

def statistics (freezer : Freezer) : Statistics :=
  { registered := freezer.store.registered
    live := freezer.store.arena.count
    retained := freezer.store.arena.toList.foldl (fun total member => total + member.2.buffer.size) 0
    captured := freezer.captured
    restored := freezer.restored
    deleted := freezer.deleted }

end Freezer
end CallStacks.Frozen
