import CallStacks.Frozen.Arena
import CallStacks.Frozen.FrozenFrame

/-!
The store: every frozen frame, and the anchor of the ring of registered chains. Its operations run
in steps that may fail one after another, and a failure keeps what the steps before it have done.
-/

namespace CallStacks.Frozen

structure Store where
  arena : Arena FrozenFrame := {}
  anchor : RingLinks := ⟨.anchor, .anchor⟩
  registered : Nat := 0

/-- An operation on the store; a failure comes with the store as it then is. -/
abbrev StoreM := EStateM Failure Store

namespace Store

def empty : Store := {}

def frame (store : Store) (handle : Handle) : Except Failure FrozenFrame :=
  Failure.ofRefusal (store.arena.get handle)

def links (store : Store) : RingNode → Except Failure RingLinks
  | .anchor => .ok store.anchor
  | .head handle => do
    let frame ← store.frame handle
    Failure.ofOption (.refused (.corrupt (.unlinked handle))) frame.ring

def setFrame (store : Store) (handle : Handle) (frame : FrozenFrame) : Store :=
  { store with arena := store.arena.set handle frame }

end Store

namespace StoreM

/-- Ask the store a question that may fail. -/
def ask {α : Type} (question : Store → Except Failure α) : StoreM α := fun store =>
  match question store with
  | .ok answer => .ok answer store
  | .error failure => .error failure store

def changeFrame (handle : Handle) (change : FrozenFrame → FrozenFrame) : StoreM Unit := do
  let frame ← ask (·.frame handle)
  modify (·.setFrame handle (change frame))

/-- Change the frame of a handle by a step that may fail. -/
def tryFrame (handle : Handle) (change : FrozenFrame → Except Failure FrozenFrame) :
    StoreM Unit := do
  let frame ← ask fun store => store.frame handle >>= change
  modify (·.setFrame handle frame)

def changeLinks (node : RingNode) (change : RingLinks → RingLinks) : StoreM Unit := do
  let links ← ask (·.links node)
  match node with
  | .anchor => modify ({ · with anchor := change links })
  | .head handle => changeFrame handle ({ · with ring := some (change links) })

/-- Let no refusal through: inside this operation each is a broken invariant. -/
def insisting {α : Type} (operation : StoreM α) : StoreM α := fun store =>
  match operation store with
  | .ok answer store => .ok answer store
  | .error failure store => .error (.stopped failure.fault) store

end StoreM
end CallStacks.Frozen
