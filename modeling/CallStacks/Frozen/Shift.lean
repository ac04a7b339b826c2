import CallStacks.Memory

/-!
Moves of a byte range. When a range of stack is copied elsewhere every pointer into it has to
follow. A shift gives the old range and the distance to its new place, in wrapping arithmetic, so
that it applies also to a range that ends at the top of the address space.
-/

namespace CallStacks.Frozen

structure Shift where
  start : Word
  size : Word
  distance : Word
  deriving DecidableEq, Repr

namespace Shift

/-- The move of `size` bytes from one place to another. -/
def between (source target size : Word) : Shift := ⟨source, size, target - source⟩

def target (shift : Shift) : Word := shift.start + shift.distance

def covers (shift : Shift) (addr : Word) : Bool :=
  shift.start ≤ addr && addr - shift.start < shift.size

def move? (shift : Shift) (addr : Word) : Option Word :=
  if shift.covers addr then some (addr + shift.distance) else none

/-- Move the pointer stored in memory at `slot`, if it points into the old range. -/
def applyAt (shift : Shift) (memory : Memory) (slot : Word) : Memory × Bool :=
  match shift.move? (memory.word slot) with
  | some moved => (memory.writeWord slot moved, true)
  | none => (memory, false)

theorem covers_iff (shift : Shift) (addr : Word) :
    shift.covers addr = true ↔
      shift.start.toNat ≤ addr.toNat ∧ addr.toNat - shift.start.toNat < shift.size.toNat := by
  simp only [covers, Bool.and_eq_true, decide_eq_true_eq, UInt64.le_iff_toNat_le,
    UInt64.lt_iff_toNat_lt]
  constructor
  · rintro ⟨below, inside⟩
    rw [UInt64.toNat_sub_of_le _ _ (UInt64.le_iff_toNat_le.mpr below)] at inside
    exact ⟨below, inside⟩
  · rintro ⟨below, inside⟩
    rw [UInt64.toNat_sub_of_le _ _ (UInt64.le_iff_toNat_le.mpr below)]
    exact ⟨below, inside⟩

end Shift
end CallStacks.Frozen
