import CallStacks.Failure
import CallStacks.Word
import CallStacks.Frozen.Handle
import CallStacks.Frozen.Register

/-!
What can go wrong with frozen frames, each cause with its message.
-/

namespace CallStacks.Frozen

/-- What a check of the registry found. -/
inductive Corruption where
  | unlinked (handle : Handle)
  | brokenBackLink (handle : Handle)
  | innerFrame (handle : Handle)
  | longForward (expected : Nat)
  | longBackward (expected : Nat)
  | openRing
  | miscounted (forward backward expected : Nat)
  | strayLinks (linked expected : Nat)
  deriving DecidableEq, Repr

/-- Answers that leave the caller to decide. -/
inductive Refusal where
  | outOfBounds (offset width length : Nat)
  | invalidExtent (sp stop : Word)
  | unsupportedReturn
  | stale (handle : Handle)
  | notChainHead (handle : Handle)
  | alreadyRegistered (handle : Handle)
  | notRegistered (handle : Handle)
  | corrupt (corruption : Corruption)
  deriving DecidableEq, Repr

inductive Violation where
  | unexpected (refusal : Refusal)
  | strayFrame (sp : Word)
  | escaping (count : Nat)
  | pinnedObject (location : Word)
  | unsavedReference (register : Register) (sp : Word)
  | belowFrame (addr sp : Word)
  | openReloadList
  | arenaFull
  /-- A list of vacant slots has come to an occupied one. -/
  | occupiedFree
  /-- A slot that was found occupied is vacant. -/
  | vacantLive
  deriving DecidableEq, Repr

/-- Reasons to stop. The last two never arise from the operations of this library: a link that is
followed for ever, and a look-up that its own bookkeeping has ruled out. -/
inductive Fault where
  | violated (violation : Violation)
  | overflow
  | collectingInCapture
  | invertedBounds
  | endless
  | impossible
  deriving DecidableEq, Repr

/-- Refusals and stops of operations on frozen frames. -/
abbrev Failure := CallStacks.Failure Refusal Fault

namespace Corruption

def message : Corruption → String
  | .unlinked handle => handle.text ++ " is linked but carries no live links"
  | .brokenBackLink handle => handle.text ++ " has a broken back link"
  | .innerFrame handle => handle.text ++ " is registered but is not a chain head"
  | .longForward expected => s!"forward walk exceeds {expected} heads"
  | .longBackward expected => s!"backward walk exceeds {expected} heads"
  | .openRing => "sentinel back link does not close the ring"
  | .miscounted forward backward expected =>
      s!"walked {forward} forward and {backward} backward, expected {expected}"
  | .strayLinks linked expected => s!"{linked} tasklets carry live links, expected {expected}"

end Corruption

namespace Refusal

def message : Refusal → String
  | .outOfBounds offset width length =>
      s!"offset {offset} (+{width}) is outside a {length} byte stack buffer"
  | .invalidExtent sp stop =>
      "invalid frame extent: sp=" ++ Word.hex sp ++ " end=" ++ Word.hex stop
  | .unsupportedReturn =>
      "unsupported return type classification: floating point and vector returns"
  | .stale handle => "stale tasklet handle " ++ handle.text
  | .notChainHead handle => "tasklet " ++ handle.text ++ " is not the head of its chain"
  | .alreadyRegistered handle => "tasklet " ++ handle.text ++ " is already registered"
  | .notRegistered handle => "tasklet " ++ handle.text ++ " is not registered"
  | .corrupt corruption => "corrupt tasklet registry: " ++ corruption.message

end Refusal

namespace Violation

def message : Violation → String
  | .unexpected refusal => refusal.message
  | .strayFrame sp => "non-method frame at sp=" ++ Word.hex sp ++ " inside a suspendable run"
  | .escaping count =>
      s!"{count} interior pointer(s) target stack outside the captured frames"
  | .pinnedObject location =>
      "pinned object reference at " ++ Word.hex location ++ " is not interior"
  | .unsavedReference register sp =>
      "live reference in " ++ register.name ++ ", which the frame at sp=" ++ Word.hex sp ++
        " did not save"
  | .belowFrame addr sp =>
      "address " ++ Word.hex addr ++ " lies below the frame at sp=" ++ Word.hex sp
  | .openReloadList => "register restore list lacks a terminator"
  | .arenaFull => "tasklet arena exhausted the u32 index space"
  | .occupiedFree => "free list points at an occupied slot"
  | .vacantLive => "slot checked occupied above"

/-- Points that are never reached are announced apart from the other violations. -/
def heading : Violation → String
  | .occupiedFree | .vacantLive => "internal error: entered unreachable code: "
  | _ => "tasklet invariant violated: "

end Violation

namespace Fault

/-- What is said when the program stops. Leaving the range of a number is not commented. -/
def message : Fault → String
  | .violated violation => violation.heading ++ violation.message
  | .collectingInCapture => "collector entered while a tasklet capture is in flight"
  | .invertedBounds => "min > max"
  | .overflow | .endless | .impossible => ""

end Fault

def insist {α : Type} : Except Refusal α → Except Fault α
  | .ok value => .ok value
  | .error refusal => .error (.violated (.unexpected refusal))

/-- Take any failure for a stop. -/
def Failure.fault : Failure → Fault
  | .refused refusal => .violated (.unexpected refusal)
  | .stopped fault => fault

end CallStacks.Frozen
