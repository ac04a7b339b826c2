/-!
Two ways not to succeed. A refusal goes back to the caller, who may carry on. A stop ends the
program: it is reserved for broken invariants and for arithmetic that has left its range.
-/

namespace CallStacks

inductive Failure (ρ φ : Type) where
  | refused (reason : ρ)
  | stopped (fault : φ)
  deriving DecidableEq, Repr

namespace Failure

def ofRefusal {ρ φ α : Type} : Except ρ α → Except (Failure ρ φ) α
  | .ok value => .ok value
  | .error reason => .error (.refused reason)

def ofStop {ρ φ α : Type} : Except φ α → Except (Failure ρ φ) α
  | .ok value => .ok value
  | .error fault => .error (.stopped fault)

/-- A missing value is the given failure. -/
def ofOption {ε α : Type} (failure : ε) : Option α → Except ε α
  | some value => .ok value
  | none => .error failure

end Failure
end CallStacks
