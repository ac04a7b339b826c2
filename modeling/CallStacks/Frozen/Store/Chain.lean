import CallStacks.Frozen.Store

/-!
Chains. A chain is followed from frame to frame by its caller or callee links. A path that is
longer than the arena has slots must come back to a frame it has visited, so it has no end.
-/

namespace CallStacks.Frozen.Store

/-- The frames met from a handle on along a link, while `budget` links may be followed. -/
def pathWithin (store : Store) (link : FrozenFrame → Option Handle) :
    Nat → Handle → Except Failure (List (Handle × FrozenFrame))
  | budget, handle => do
    let frame ← store.frame handle
    match link frame with
    | none => return [(handle, frame)]
    | some next =>
      match budget with
      | 0 => throw (.stopped .endless)
      | budget + 1 => return (handle, frame) :: (← store.pathWithin link budget next)

def path (store : Store) (link : FrozenFrame → Option Handle) (handle : Handle) :
    Except Failure (List (Handle × FrozenFrame)) :=
  store.pathWithin link store.arena.slots.size handle

def chainHead (store : Store) (handle : Handle) : Except Failure Handle := do
  let callers ← store.path (·.caller) handle
  return (callers.getLast?.map (·.1)).getD handle

/-- A chain from its head to the innermost frame. -/
def chainMembers (store : Store) (head : Handle) : Except Failure (List Handle) := do
  return (← store.path (·.callee) head).map (·.1)

/-- The lowest floor of a chain. An active member makes the whole chain active. -/
def chainFloor (store : Store) (head : Handle) : Except Failure Generation := do
  let start ← store.frame head
  return (← store.path (·.callee) head).foldl (fun floor member => min floor member.2.floor)
    start.floor

end CallStacks.Frozen.Store
