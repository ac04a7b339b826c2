import CallStacks.Failure
import CallStacks.Word

/-!
What can go wrong with green stacks, each cause with its message.
-/

namespace CallStacks.Green

/-- Answers that leave the caller to decide. -/
inductive Refusal where
  | invalidSegmentSize (size redZone : Word)
  | underflow
  | noOsStack
  | notGreen
  | alreadyGreen
  | inUse
  deriving DecidableEq, Repr

/-- Reasons to stop. -/
inductive Fault where
  | fatal (refusal : Refusal)
  | overflow
  deriving DecidableEq, Repr

/-- Refusals and stops of operations on green stacks. -/
abbrev Failure := CallStacks.Failure Refusal Fault

def Refusal.message : Refusal → String
  | .invalidSegmentSize size redZone =>
      s!"invalid stack segment size: {size} bytes plus {redZone} byte red zone"
  | .underflow => "stack segment list underflow"
  | .noOsStack => "no OS stack snapshot for this green thread"
  | .notGreen => "not running on a green thread"
  | .alreadyGreen => "already running on a green thread"
  | .inUse => "green stack is still in use"

/-- What is said when the program stops. Leaving the range of a number is not commented. -/
def Fault.message : Fault → String
  | .fatal refusal => "green stack failure: " ++ refusal.message
  | .overflow => ""

/-- Take any failure for a stop. -/
def Failure.fault : Failure → Fault
  | .refused refusal => .fatal refusal
  | .stopped fault => fault

end CallStacks.Green
