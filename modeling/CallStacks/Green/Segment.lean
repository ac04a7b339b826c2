import CallStacks.Green.Failure

/-!
Stack segments. A segment is a block of memory with a red zone at its lower end; the stack grows
down from the block's end to the red zone.
-/

namespace CallStacks.Green

/-- The bounds of a stack: the lowest usable address and the end of the usable ones. -/
structure StackRange where
  limit : Word := 0
  base : Word := 0
  deriving DecidableEq, Repr

namespace StackRange

def has (range : StackRange) (addr : Word) : Bool := range.limit ≤ addr && addr < range.base

def isEmpty (range : StackRange) : Bool := range.base == range.limit

/-- The number of usable bytes, if the bounds are in order. -/
def size? (range : StackRange) : Option Word := Word.sub? range.base range.limit

end StackRange

/-- The alignment of a stack pointer at a call, and of every segment. -/
def stackAlign : Word := 16

structure Segment where
  start : Word
  redZone : Word
  size : Word
  deriving DecidableEq, Repr

namespace Segment

def limit (segment : Segment) : Word := segment.start + segment.redZone

def base (segment : Segment) : Word := segment.start + segment.redZone + segment.size

def range (segment : Segment) : StackRange := ⟨segment.limit, segment.base⟩

/-- The most bytes in one block: half the address space, short of one alignment step. -/
def maxBlock : Nat := UInt64.size / 2 - 16

/-- A segment at an address. It has some usable bytes and is no larger than a block may be. -/
def make (start size redZone : Word) : Except Refusal Segment :=
  if size ≠ 0 ∧ size.toNat + redZone.toNat ≤ maxBlock then .ok ⟨start, redZone, size⟩
  else .error (.invalidSegmentSize size redZone)

theorem make_eq_ok_iff {start size redZone : Word} {segment : Segment} :
    make start size redZone = .ok segment ↔
      size ≠ 0 ∧ size.toNat + redZone.toNat ≤ maxBlock ∧ segment = ⟨start, redZone, size⟩ := by
  rw [make, ← and_assoc]
  split
  case isTrue fits => simp [fits, eq_comm]
  case isFalse unfit => exact iff_of_false nofun fun made => unfit made.1

theorem make_eq_error_iff {start size redZone : Word} {refusal : Refusal} :
    make start size redZone = .error refusal ↔
      (size = 0 ∨ maxBlock < size.toNat + redZone.toNat) ∧
        refusal = .invalidSegmentSize size redZone := by
  have unfit : (size = 0 ∨ maxBlock < size.toNat + redZone.toNat) ↔
      ¬ (size ≠ 0 ∧ size.toNat + redZone.toNat ≤ maxBlock) := by
    rw [Classical.not_and_iff_not_or_not, Classical.not_not, Nat.not_le]
  rw [make, unfit]
  split
  case isTrue fits => exact iff_of_false nofun fun refused => refused.1 fits
  case isFalse unfit => simp [unfit, eq_comm]

end Segment
end CallStacks.Green
