import CallStacks.LittleEndian
import CallStacks.Word

/-!
Byte-addressed memory. Every address holds a byte, and a range that runs past the top address
continues at the bottom. Words are little-endian and need no alignment.
-/

namespace CallStacks

namespace Word

/-- The eight bytes of a word, least significant first. -/
def toBytes (a : Word) : List UInt8 := LittleEndian.encode 8 a.toNat

/-- The word that eight bytes stand for. -/
def ofBytes (bytes : List UInt8) : Word := UInt64.ofNat (LittleEndian.decode bytes)

@[simp] theorem length_toBytes (a : Word) : (toBytes a).length = 8 := by simp [toBytes]

@[simp] theorem ofBytes_toBytes (a : Word) : ofBytes (toBytes a) = a := by
  have := a.toNat_lt
  apply UInt64.toNat_inj.mp
  have all : LittleEndian.count 8 = 0x10000000000000000 := rfl
  simp only [ofBytes, toBytes, LittleEndian.decode_encode, UInt64.toNat_ofNat', all]
  omega

theorem toBytes_ofBytes {bytes : List UInt8} (eight : bytes.length = 8) :
    toBytes (ofBytes bytes) = bytes := by
  have small := LittleEndian.decode_lt bytes
  have all : LittleEndian.count 8 = 0x10000000000000000 := rfl
  rw [eight, all] at small
  have same : (UInt64.ofNat (LittleEndian.decode bytes)).toNat = LittleEndian.decode bytes := by
    rw [UInt64.toNat_ofNat']
    omega
  have back := LittleEndian.encode_decode bytes
  rw [eight] at back
  rw [toBytes, ofBytes, same, back]

end Word

/-- The contents of the whole address space. -/
@[ext] structure Memory where
  byte : Word → UInt8

namespace Memory

def blank : Memory := ⟨fun _ => 0⟩

/-- The `count` bytes from an address upwards. -/
def bytes (memory : Memory) (start : Word) (count : Nat) : List UInt8 :=
  List.ofFn fun i : Fin count => memory.byte (start + UInt64.ofNat i)

/-- The word stored at an address. -/
def word (memory : Memory) (start : Word) : Word := Word.ofBytes (memory.bytes start 8)

/-- The `count` consecutive words from an address upwards. -/
def words (memory : Memory) (start : Word) (count : Nat) : List Word :=
  List.ofFn fun i : Fin count => memory.word (start + 8 * UInt64.ofNat i)

/-- Replace the bytes from an address upwards by a block, and nothing else. -/
def write (memory : Memory) (start : Word) (block : Array UInt8) : Memory :=
  ⟨fun addr => block.getD (addr - start).toNat (memory.byte addr)⟩

def writeWord (memory : Memory) (start value : Word) : Memory :=
  memory.write start (Word.toBytes value).toArray

def writeWords (memory : Memory) (start : Word) (values : List Word) : Memory :=
  memory.write start (values.flatMap Word.toBytes).toArray

/-- Copy a block between two places that do not overlap. -/
def copy (memory : Memory) (source target : Word) (count : Nat) : Memory :=
  memory.write target (memory.bytes source count).toArray

@[simp] theorem length_bytes (memory : Memory) (start : Word) (count : Nat) :
    (memory.bytes start count).length = count := by simp [bytes]

/-- A write is seen inside its block and nowhere else. -/
theorem byte_write (memory : Memory) (start : Word) (block : Array UInt8) (addr : Word) :
    (memory.write start block).byte addr =
      if inside : (addr - start).toNat < block.size then block[(addr - start).toNat]
      else memory.byte addr := by
  simp only [write, Array.getD]
  rfl

theorem byte_write_outside (memory : Memory) (start : Word) (block : Array UInt8) {addr : Word}
    (outside : block.size ≤ (addr - start).toNat) :
    (memory.write start block).byte addr = memory.byte addr := by
  rw [byte_write, dif_neg (by omega)]

theorem getElem_bytes (memory : Memory) (start : Word) (count i : Nat)
    (inside : i < (memory.bytes start count).length) :
    (memory.bytes start count)[i] = memory.byte (start + UInt64.ofNat i) := by
  simp [bytes]

/-- A block is read back from where it was written. -/
theorem bytes_write (memory : Memory) (start : Word) (block : List UInt8)
    (fits : block.length ≤ UInt64.size) :
    (memory.write start block.toArray).bytes start block.length = block := by
  apply List.ext_getElem
  · simp
  intro i _ inside
  have distance : (start + UInt64.ofNat i - start).toNat = i := by
    rw [UInt64.add_comm, UInt64.add_sub_cancel, UInt64.toNat_ofNat']
    exact Nat.mod_eq_of_lt (Nat.lt_of_lt_of_le inside fits)
  have covered : (start + UInt64.ofNat i - start).toNat < block.toArray.size := by
    rw [distance, List.size_toArray]
    exact inside
  rw [getElem_bytes, byte_write, dif_pos covered]
  simp only [distance, List.getElem_toArray]

/-- A range that a write does not touch reads as before. -/
theorem bytes_write_outside (memory : Memory) (start : Word) (block : Array UInt8) (first : Word)
    (count : Nat)
    (apart : ∀ i, i < count → block.size ≤ (first + UInt64.ofNat i - start).toNat) :
    (memory.write start block).bytes first count = memory.bytes first count := by
  apply List.ext_getElem
  · simp
  intro i inside _
  rw [length_bytes] at inside
  rw [getElem_bytes, getElem_bytes, byte_write_outside memory start block (apart i inside)]

@[simp] theorem word_writeWord (memory : Memory) (start value : Word) :
    (memory.writeWord start value).word start = value := by
  have read := memory.bytes_write start (Word.toBytes value) (by simp [UInt64.size])
  rw [Word.length_toBytes] at read
  rw [word, writeWord, read, Word.ofBytes_toBytes]

end Memory
end CallStacks
