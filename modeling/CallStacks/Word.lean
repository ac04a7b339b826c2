/-!
Machine words. Addresses and byte counts are 64-bit words; additions and subtractions that must
not leave that range are the checked ones here, and the plain operators wrap.
-/

namespace CallStacks

/-- An address, a byte count or the contents of a general register. -/
abbrev Word := UInt64

namespace Word

/-- The sum, unless it needs more than 64 bits. -/
def add? (a b : Word) : Option Word :=
  if a.toNat + b.toNat < UInt64.size then some (a + b) else none

/-- The difference, unless it is negative. -/
def sub? (a b : Word) : Option Word :=
  if b ≤ a then some (a - b) else none

/-- The largest multiple of `align` that is not above `addr`. -/
def alignDown (addr align : Word) : Word := addr - addr % align

/-- Exactly one bit is set. -/
def isPowerOfTwo (a : Word) : Bool := a != 0 && a &&& (a - 1) == 0

/-- Rounding down, for alignments that are powers of two. -/
def alignDown? (addr align : Word) : Option Word :=
  if isPowerOfTwo align then some (alignDown addr align) else none

/-- Lower-case hexadecimal with its marker and no leading zeros. -/
def hex (a : Word) : String := "0x" ++ String.ofList (Nat.toDigits 16 a.toNat)

theorem add?_eq_some_iff {a b sum : Word} :
    add? a b = some sum ↔ a.toNat + b.toNat < UInt64.size ∧ sum.toNat = a.toNat + b.toNat := by
  rw [add?]
  split
  case isTrue fits =>
    rw [Option.some.injEq, ← UInt64.toNat_inj, UInt64.toNat_add, Nat.mod_eq_of_lt fits]
    exact ⟨fun same => ⟨fits, same.symm⟩, fun same => same.2.symm⟩
  case isFalse large => exact ⟨nofun, fun both => absurd both.1 large⟩

theorem sub?_eq_some_iff {a b difference : Word} :
    sub? a b = some difference ↔ b.toNat ≤ a.toNat ∧ difference.toNat = a.toNat - b.toNat := by
  rw [sub?, ← UInt64.le_iff_toNat_le]
  split
  case isTrue ordered =>
    rw [Option.some.injEq, ← UInt64.toNat_inj, UInt64.toNat_sub_of_le _ _ ordered]
    exact ⟨fun same => ⟨ordered, same.symm⟩, fun same => same.2.symm⟩
  case isFalse negative => simp [negative]

theorem sub?_eq_none_iff {a b : Word} : sub? a b = none ↔ a.toNat < b.toNat := by
  rw [sub?, ← UInt64.lt_iff_toNat_lt]
  split
  case isTrue ordered => simpa using ordered
  case isFalse negative => simpa using negative

theorem toNat_alignDown (addr align : Word) :
    (alignDown addr align).toNat = addr.toNat - addr.toNat % align.toNat := by
  have bound : addr % align ≤ addr := by
    rw [UInt64.le_iff_toNat_le, UInt64.toNat_mod]
    exact Nat.mod_le _ _
  rw [alignDown, UInt64.toNat_sub_of_le _ _ bound, UInt64.toNat_mod]

theorem dvd_alignDown (addr align : Word) : align.toNat ∣ (alignDown addr align).toNat := by
  rw [toNat_alignDown]
  exact Nat.dvd_sub_mod addr.toNat

theorem le_max_right (first second : Word) : second ≤ max first second := by
  change second ≤ if first ≤ second then second else first
  split
  next => exact UInt64.le_refl second
  next less => exact UInt64.le_of_lt (UInt64.not_le.mp less)

end Word
end CallStacks
