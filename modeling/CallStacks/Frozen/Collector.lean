import CallStacks.Frozen.Store.Ring

/-!
What the collector does with suspended chains. It visits the root slots of every registered chain
that may refer to a condemned generation, and it keeps the floors that let it pass over the
others: up after a collection, down again before one where referents turn out younger. The head
of a chain holds the lowest floor of the chain.
-/

namespace CallStacks.Frozen

/-- A root slot with the word it holds. -/
structure RootSlot where
  owner : Handle
  root : Root
  value : Word
  deriving DecidableEq, Repr

/-- What a collector does at a slot: it may give a word to put there. -/
abbrev Visitor (σ : Type) := RootSlot → StateM σ (Option Word)

namespace Visitor

variable {σ : Type} (visit : Visitor σ)

/-- Visit one root of a buffer. Gives the buffer with the word put in, and the visitor's state. -/
def slot (owner : Handle) (layout : Layout) (root : Root) (buffer : Buffer) (state : σ) :
    Except Refusal (Buffer × σ) := do
  let offset ← layout.bufferOffset root.offset
  let value ← buffer.read offset
  match (visit ⟨owner, root, value⟩).run state with
  | (some word, state) => return (← buffer.write offset word, state)
  | (none, state) => return (buffer, state)

/-- Visit roots of one buffer in turn. Gives the buffer with the words put in, the number of
visits and the visitor's state. -/
def run (owner : Handle) (layout : Layout) :
    List Root → Buffer → σ → Except Refusal (Buffer × Nat × σ)
  | [], buffer, state => return (buffer, 0, state)
  | root :: rest, buffer, state => do
    let (buffer, state) ← visit.slot owner layout root buffer state
    let (buffer, count, state) ← run owner layout rest buffer state
    return (buffer, count + 1, state)

/-- Visit the roots of a frame, unless its floor lies above the condemned generation. -/
def frame (condemned : Generation) (seen : Nat × σ) (handle : Handle) : StoreM (Nat × σ) := do
  let frame ← StoreM.ask (·.frame handle)
  if frame.floor > condemned then return seen
  let (buffer, count, state) ← StoreM.ask fun _ =>
    Failure.ofRefusal (visit.run handle frame.layout frame.layout.roots frame.buffer seen.2)
  modify (·.setFrame handle { frame with buffer })
  return (seen.1 + count, state)

/-- Visit the roots of a chain, head first, unless the head's floor lies above the condemned
generation. -/
def chain (condemned : Generation) (seen : Nat × σ) (head : Handle) : StoreM (Nat × σ) := do
  let frame ← StoreM.ask (·.frame head)
  if frame.floor > condemned then return seen
  let members ← StoreM.ask (·.chainMembers head)
  members.foldlM (visit.frame condemned) seen

/-- Visit the roots of every registered chain. Gives the number of visits and the visitor's
state. -/
def chains (condemned : Generation) (state : σ) : StoreM (Nat × σ) := StoreM.insisting do
  let heads ← StoreM.ask Store.heads
  heads.foldlM (visit.chain condemned) (0, state)

end Visitor

namespace StoreM

def ageFrame (oldest : Generation) (handle : Handle) : StoreM Unit :=
  tryFrame handle fun frame => do
    let floor ← Failure.ofStop (frame.floor.aged oldest)
    return { frame with floor }

/-- Raise the floors of a chain that took part in the collection, and count it. -/
def ageChain (condemned oldest : Generation) (count : Nat) (head : Handle) : StoreM Nat := do
  let frame ← ask (·.frame head)
  if frame.floor.isActive || frame.floor > condemned then return count
  let members ← ask (·.chainMembers head)
  members.forM (ageFrame oldest)
  return count + 1

/-- After a collection of `condemned`, raise the floors of the chains that took part in it. Gives
their number. -/
def age (condemned oldest : Generation) : StoreM Nat := insisting do
  let heads ← ask Store.heads
  heads.foldlM (ageChain condemned oldest) 0

end StoreM

/-- What a rejuvenation did: the members whose floor it lowered, and the words it asked the heap
about. -/
structure Rejuvenation where
  lowered : Nat := 0
  asked : List Word := []
  deriving DecidableEq, Repr

namespace Rejuvenation

variable (heap : Word → Generation) (oldest : Generation)

/-- The lowest of a floor and the generations of the words at some offsets, and the words the heap
was asked about. Null words have no generation, and nothing lies below the youngest. -/
def youngest (layout : Layout) (buffer : Buffer) :
    List UInt32 → Generation → Except Failure (Generation × List Word)
  | [], floor => return (floor, [])
  | offset :: rest, floor => do
    if floor = Generation.youngest then return (floor, [])
    let referent ← Failure.ofRefusal (layout.bufferOffset offset >>= buffer.read)
    if referent = 0 then youngest layout buffer rest floor
    else
      let generation ← Failure.ofStop ((heap referent).bounded oldest)
      let (floor, asked) ← youngest layout buffer rest (min floor generation)
      return (floor, referent :: asked)

/-- Lower the floor of a member to its youngest referent. Carries the lowest floor of the chain so
far. -/
def frame (seen : Generation × Rejuvenation) (handle : Handle) :
    StoreM (Generation × Rejuvenation) := do
  let (chainFloor, done) := seen
  let frame ← StoreM.ask (·.frame handle)
  if frame.floor.isActive then return seen
  let (floor, asked) ← StoreM.ask fun _ =>
    youngest heap oldest frame.layout frame.buffer (frame.layout.roots.map (·.offset)) frame.floor
  let asked := done.asked ++ asked
  if floor < frame.floor then
    modify (·.setFrame handle { frame with floor })
    return (min chainFloor floor, ⟨done.lowered + 1, asked⟩)
  else return (min chainFloor floor, ⟨done.lowered, asked⟩)

/-- Lower the floors of a chain whose head's floor is neither the youngest nor above the condemned
generation. -/
def chain (condemned : Generation) (done : Rejuvenation) (head : Handle) :
    StoreM Rejuvenation := do
  let floor := (← StoreM.ask (·.frame head)).floor
  if floor ≤ Generation.youngest || floor > condemned then return done
  let members ← StoreM.ask (·.chainMembers head)
  let (chainFloor, done) ← members.foldlM (frame heap oldest) (floor, done)
  StoreM.changeFrame head fun frame => { frame with floor := min frame.floor chainFloor }
  return done

end Rejuvenation

/-- Before a collection of `condemned`, lower the floors of the chains that will take part in it to
where their referents are. -/
def StoreM.rejuvenate (heap : Word → Generation) (condemned oldest : Generation) :
    StoreM Rejuvenation := insisting do
  let heads ← ask Store.heads
  heads.foldlM (Rejuvenation.chain heap oldest condemned) {}

end CallStacks.Frozen
