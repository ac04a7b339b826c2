/-!
Handles of frozen frames. A handle names a slot and the generation in which the slot was filled,
so a handle to a frame that has gone never reaches the frame that took its slot.
-/

namespace CallStacks.Frozen

structure Handle where
  index : UInt32
  generation : UInt32
  deriving DecidableEq, Repr

def Handle.text (handle : Handle) : String :=
  s!"TaskletId \x7b index: {handle.index}, generation: {handle.generation} \x7d"

end CallStacks.Frozen
