/-!
Little-endian digits. Writing a number in some bytes and reading them back gives what of the number
fits them, so a word survives its eight bytes unchanged.
-/

namespace CallStacks.LittleEndian

/-- The lowest `n` bytes of a number, least significant first. -/
def encode : Nat → Nat → List UInt8
  | 0, _ => []
  | n + 1, value => UInt8.ofNat value :: encode n (value / 256)

/-- The number that a list of bytes stands for, least significant byte first. -/
def decode : List UInt8 → Nat
  | [] => 0
  | byte :: rest => byte.toNat + 256 * decode rest

/-- How many numbers there are of `n` bytes. -/
def count : Nat → Nat
  | 0 => 1
  | n + 1 => 256 * count n

@[simp] theorem length_encode (n value : Nat) : (encode n value).length = n := by
  induction n generalizing value with
  | zero => rfl
  | succ n ih => simp [encode, ih]

theorem decode_encode (n value : Nat) : decode (encode n value) = value % count n := by
  induction n generalizing value with
  | zero => simp [encode, decode, count, Nat.mod_one]
  | succ n ih =>
    have split : value % count (n + 1) = value % 256 + 256 * (value / 256 % count n) := by
      rw [count, Nat.mod_mul]
    simp [encode, decode, ih, split]

theorem decode_lt (bytes : List UInt8) : decode bytes < count bytes.length := by
  induction bytes with
  | nil => simp [decode, count]
  | cons byte rest ih =>
    have := byte.toNat_lt
    simp only [decode, List.length_cons, count]
    omega

theorem encode_decode (bytes : List UInt8) : encode bytes.length (decode bytes) = bytes := by
  induction bytes with
  | nil => rfl
  | cons byte rest ih =>
    have small := byte.toNat_lt
    have quotient : (byte.toNat + 256 * decode rest) / 256 = decode rest := by omega
    have low : UInt8.ofNat (byte.toNat + 256 * decode rest) = byte := by
      apply UInt8.toNat_inj.mp
      rw [UInt8.toNat_ofNat']
      omega
    simp [encode, decode, quotient, low, ih]

theorem take_encode (n more value : Nat) : (encode (n + more) value).take n = encode n value := by
  induction n generalizing value with
  | zero => rfl
  | succ n ih =>
    rw [Nat.succ_add]
    exact congrArg (UInt8.ofNat value :: ·) (ih (value / 256))

end CallStacks.LittleEndian
