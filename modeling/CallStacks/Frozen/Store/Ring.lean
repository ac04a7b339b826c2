import CallStacks.Frozen.Store.Chain

/-!
The ring of registered chains. Chain heads hang on a ring around an anchor, the last registered
first. The ring exists for the collector, which finds the suspended chains by it.
-/

namespace CallStacks.Frozen

namespace Store

/-- The heads met from a place on the ring on, while `budget` of them may be passed. -/
def headsWithin (store : Store) : Nat → RingNode → Except Failure (List Handle)
  | _, .anchor => return []
  | budget, .head handle => do
    let links ← (store.links (.head handle)).mapError fun failure => .stopped failure.fault
    match budget with
    | 0 => throw (.stopped .endless)
    | budget + 1 => return handle :: (← store.headsWithin budget links.next)

/-- The registered heads, the last registered first. -/
def heads (store : Store) : Except Failure (List Handle) :=
  store.headsWithin store.arena.slots.size store.anchor.next

/-- Go round forwards from a place, checking each head against the place before it. Gives the
number of heads and the last place. -/
def checkForward (store : Store) : Nat → RingNode → RingNode → Except Failure (Nat × RingNode)
  | _, before, .anchor => return (0, before)
  | budget, before, .head handle => do
    let links ← store.links (.head handle)
    if links.prev ≠ before then throw (.refused (.corrupt (.brokenBackLink handle)))
    let frame ← store.frame handle
    if !frame.isHead then throw (.refused (.corrupt (.innerFrame handle)))
    match budget with
    | 0 => throw (.refused (.corrupt (.longForward store.registered)))
    | budget + 1 =>
      let (count, last) ← store.checkForward budget (.head handle) links.next
      return (count + 1, last)

/-- Go round backwards from a place and count the heads. -/
def checkBackward (store : Store) : Nat → RingNode → Except Failure Nat
  | _, .anchor => return 0
  | 0, .head _ => throw (.refused (.corrupt (.longBackward store.registered)))
  | budget + 1, .head handle => do
    let links ← store.links (.head handle)
    return (← store.checkBackward budget links.prev) + 1

/-- Check that the ring closes in both directions and holds exactly the frames that carry links. -/
def verify (store : Store) : Except Failure Unit := do
  let (forward, last) ← store.checkForward store.registered .anchor store.anchor.next
  if store.anchor.prev ≠ last then throw (.refused (.corrupt .openRing))
  let backward ← store.checkBackward store.registered store.anchor.prev
  if forward ≠ store.registered ∨ backward ≠ store.registered then
    throw (.refused (.corrupt (.miscounted forward backward store.registered)))
  let linked := store.arena.toList.countP (·.2.isRegistered)
  if linked ≠ store.registered then
    throw (.refused (.corrupt (.strayLinks linked store.registered)))

end Store

namespace StoreM

/-- Hang a frame on the ring, right after the anchor. -/
def hang (handle : Handle) : StoreM Unit := do
  let first := (← get).anchor.next
  changeFrame handle ({ · with ring := some ⟨first, .anchor⟩ })
  changeLinks first ({ · with prev := .head handle })
  modify fun store =>
    { store with
      anchor := { store.anchor with next := .head handle }
      registered := store.registered + 1 }

/-- Register a chain by its head, before all others. -/
def register (handle : Handle) : StoreM Unit := do
  let frame ← ask (·.frame handle)
  if !frame.isHead then throw (.refused (.notChainHead handle))
  if frame.isRegistered then throw (.refused (.alreadyRegistered handle))
  hang handle

/-- Count one registered chain less. -/
def countDown : StoreM Unit := do
  match (← get).registered with
  | 0 => throw (.stopped .overflow)
  | count + 1 => modify ({ · with registered := count })

/-- Take a chain head off the ring. -/
def unregister (handle : Handle) : StoreM Unit := do
  match (← ask (·.frame handle)).ring with
  | none => throw (.refused (.notRegistered handle))
  | some links =>
    changeLinks links.prev ({ · with next := links.next })
    changeLinks links.next ({ · with prev := links.prev })
    changeFrame handle ({ · with ring := none })
    countDown

/-- Put a new head on the ring in the place of an old one. -/
def replaceHead (old new : Handle) : StoreM Unit := do
  match (← ask (·.frame old)).ring with
  | none => throw (.refused (.notRegistered old))
  | some links =>
    changeFrame old ({ · with ring := none })
    changeFrame new ({ · with ring := some links })
    changeLinks links.prev ({ · with next := .head new })
    changeLinks links.next ({ · with prev := .head new })

/-- Let the neighbours of a frame in its chain close up over it. -/
def bypass (frame : FrozenFrame) : StoreM Unit := do
  frame.caller.forM fun caller => changeFrame caller ({ · with callee := frame.callee })
  frame.callee.forM fun callee => changeFrame callee ({ · with caller := frame.caller })

/-- A frame that becomes head takes the floor of all it then stands for. -/
def takeOver (head : Handle) : StoreM Unit := do
  let floor ← ask (·.chainFloor head)
  changeFrame head fun frame => { frame with floor := min frame.floor floor }

/-- The callee of a head that goes becomes head. -/
def passFloor (frame : FrozenFrame) : StoreM Unit :=
  match frame.caller, frame.callee with
  | none, some callee => takeOver callee
  | _, _ => pure ()

/-- A frame that goes leaves the ring, to its callee if that becomes head. -/
def leaveRing (handle : Handle) (frame : FrozenFrame) : StoreM Unit := do
  if frame.isRegistered then
    match frame.caller, frame.callee with
    | none, some callee => replaceHead handle callee
    | _, _ => unregister handle

def takeOut (handle : Handle) : StoreM FrozenFrame := do
  let (removed, arena) ← ask (·.arena.remove handle)
  modify ({ · with arena })
  return removed

/-- Take a frame out of its chain, off the ring and out of the arena. -/
def detach (handle : Handle) : StoreM FrozenFrame := do
  let frame ← ask (·.frame handle)
  bypass frame
  passFloor frame
  leaveRing handle frame
  takeOut handle

/-- Put a frame into the arena, on no chain and off the ring. -/
def insert (frame : FrozenFrame) : StoreM Handle := do
  let (handle, arena) ← ask fun store => Failure.ofStop (store.arena.insert frame)
  modify ({ · with arena })
  return handle

end StoreM
end CallStacks.Frozen
