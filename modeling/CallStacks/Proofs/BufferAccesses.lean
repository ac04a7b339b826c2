import Mathlib.Algebra.BigOperators.Fin
import CallStacks.Proofs.BufferMoves

/-! Sequences of accesses to one buffer. The bytes of the buffer are at all times those last put in, wherever the
accesses start and however they overlap, and an access outside the buffer puts nothing in. -/

namespace CallStacks

namespace LittleEndian

private theorem decode_ofFn {n : Nat} (byte : Fin n → UInt8) :
    decode (List.ofFn byte) = ∑ place, (byte place).toNat * 256 ^ (place : Nat) := by
  induction n with
  | zero => rfl
  | succ n ih =>
    rw [List.ofFn_succ, decode, ih, Fin.sum_univ_succ, Finset.mul_sum]
    simp only [Fin.val_zero, pow_zero, mul_one, Fin.val_succ, pow_succ]
    congr 1
    exact Finset.sum_congr rfl fun place _ => by
      rw [Nat.mul_left_comm, Nat.mul_comm 256]

end LittleEndian

namespace Word

private theorem toNat_ofBytes {bytes : List UInt8} (eight : bytes.length = 8) :
    (ofBytes bytes).toNat = LittleEndian.decode bytes := by
  have small := LittleEndian.decode_lt bytes
  rw [eight] at small
  rw [ofBytes, UInt64.toNat_ofNat']
  exact Nat.mod_eq_of_lt small

end Word

namespace Frozen

inductive Access where
  | read (offset : Word)
  | write (offset value : Word)
  | writeBytes (offset : Word) (block : Array UInt8)
  | relocate (offset : Word) (shift : Shift)

inductive Reply where
  | word (value : Word)
  | stored
  | relocated (moved : Bool)

structure Patch where
  offset : Nat
  block : Array UInt8

namespace Access

def offset : Access → Word
  | read offset => offset
  | write offset _ => offset
  | writeBytes offset _ => offset
  | relocate offset _ => offset

def width : Access → Nat
  | writeBytes _ block => block.size
  | read _ | write _ _ | relocate _ _ => 8

/-- What an access puts into a buffer. -/
def patch? (buffer : Buffer) : Access → Option Patch
  | read _ => none
  | write offset value => some ⟨offset.toNat, (Word.toBytes value).toArray⟩
  | writeBytes offset block => some ⟨offset.toNat, block⟩
  | relocate offset shift =>
    match buffer.read offset.toNat with
    | .ok value => (shift.move? value).map fun moved => ⟨offset.toNat, (Word.toBytes moved).toArray⟩
    | .error _ => none

/-- What an access answers and the bytes that are then in its range, where `spelled` tells the words these
spelled before. -/
inductive Answers (spelled : Word → Prop) : Access → Reply → Array UInt8 → Prop where
  | read {offset value : Word} : spelled value →
    Answers spelled (.read offset) (.word value) (Word.toBytes value).toArray
  | write {offset value : Word} : Answers spelled (.write offset value) .stored (Word.toBytes value).toArray
  | writeBytes {offset : Word} {block : Array UInt8} : Answers spelled (.writeBytes offset block) .stored block
  | relocate {offset value : Word} {shift : Shift} : spelled value →
    Answers spelled (.relocate offset shift) (.relocated (shift.move? value).isSome)
      (Word.toBytes ((shift.move? value).getD value)).toArray

theorem Answers.imp {spelled other : Word → Prop} {access : Access} {reply : Reply} {block : Array UInt8}
    (answers : access.Answers spelled reply block) (weaker : ∀ value, spelled value → other value) :
    access.Answers other reply block := by
  cases answers with
  | read spelled => exact .read (weaker _ spelled)
  | write => exact .write
  | writeBytes => exact .writeBytes
  | relocate spelled => exact .relocate (weaker _ spelled)

end Access

namespace Buffer

def serve (buffer : Buffer) : Access → Except Refusal (Reply × Buffer)
  | .read offset => return (.word (← buffer.read offset.toNat), buffer)
  | .write offset value => return (.stored, ← buffer.write offset.toNat value)
  | .writeBytes offset block => return (.stored, ← buffer.writeBytes offset.toNat block)
  | .relocate offset shift => do
    let (after, moved) ← buffer.relocate offset.toNat shift
    return (.relocated moved, after)

/-- The buffer after some accesses, the last one first. One that is refused leaves it as it is. -/
def after (start : Buffer) : List Access → Buffer
  | [] => start
  | access :: earlier =>
    match (start.after earlier).serve access with
    | .ok (_, next) => next
    | .error _ => start.after earlier

def patches (start : Buffer) : List Access → List Patch
  | [] => []
  | access :: earlier =>
    match (start.after earlier).serve access with
    | .ok _ => (access.patch? (start.after earlier)).toList ++ start.patches earlier
    | .error _ => start.patches earlier

/-- The byte last put in at a place, or the one that was there at first. -/
def latest (start : Buffer) (index : Nat) : List Patch → Option UInt8
  | [] => start.bytes[index]?
  | patch :: earlier =>
    if patch.offset ≤ index ∧ index < patch.offset + patch.block.size then patch.block[index - patch.offset]?
    else start.latest index earlier

variable {buffer start : Buffer} {access : Access} {earlier : List Access} {offset width : Nat}

private theorem check_of_outside (beyond : buffer.size < offset + width) :
    buffer.check offset width = .error (.outOfBounds offset width buffer.size) := by
  rw [check, holds, if_neg (by simpa using beyond)]

/-- The bound can be checked in 64 bits, where a sum that does not fit is beyond the bound. -/
theorem check_eq_ok_iff_add? {first count : Word} (small : buffer.size < UInt64.size) :
    buffer.check first.toNat count.toNat = .ok () ↔
      ∃ stop, Word.add? first count = some stop ∧ stop.toNat ≤ buffer.size := by
  rw [check_eq_ok_iff]
  constructor
  · intro fits
    obtain ⟨stop, added⟩ : ∃ stop, Word.add? first count = some stop :=
      ⟨_, if_pos (Nat.lt_of_le_of_lt fits small)⟩
    exact ⟨stop, added, (Word.add?_eq_some_iff.mp added).2 ▸ fits⟩
  · rintro ⟨stop, added, fits⟩
    exact (Word.add?_eq_some_iff.mp added).2 ▸ fits

structure Served (buffer : Buffer) (access : Access) (reply : Reply) (block : Array UInt8) : Prop where
  result : buffer.serve access = .ok (reply, buffer.overlay access.offset.toNat block)
  width : block.size = access.width
  answers : access.Answers (fun value => buffer.read access.offset.toNat = .ok value) reply block
  put : access.patch? buffer = some ⟨access.offset.toNat, block⟩ ∨
    access.patch? buffer = none ∧ buffer.overlay access.offset.toNat block = buffer

private theorem serve_inside (fits : access.offset.toNat + access.width ≤ buffer.size) :
    ∃ reply block, Served buffer access reply block := by
  cases access with
  | read offset =>
    obtain ⟨value, read⟩ := read_of_inside (show offset.toNat + 8 ≤ buffer.size from fits)
    have same := overlay_of_read read
    refine ⟨.word value, _, ?_, by simp [Access.width], .read read, .inr ⟨rfl, same⟩⟩
    rw [Access.offset, same, serve, read]
    rfl
  | write offset value =>
    have wrote := write_of_inside value (show offset.toNat + 8 ≤ buffer.size from fits)
    refine ⟨.stored, _, ?_, by simp [Access.width], .write, .inl rfl⟩
    rw [serve, wrote]
    rfl
  | writeBytes offset block =>
    have wrote := writeBytes_of_inside (show offset.toNat + block.size ≤ buffer.size from fits)
    refine ⟨.stored, block, ?_, rfl, .writeBytes, .inl rfl⟩
    rw [serve, wrote]
    rfl
  | relocate offset shift =>
    obtain ⟨value, read⟩ := read_of_inside (show offset.toNat + 8 ≤ buffer.size from fits)
    refine ⟨.relocated (shift.move? value).isSome, _, ?_, by simp [Access.width], .relocate read, ?_⟩
    · rw [serve, relocate_of_read read]
      rfl
    · simp only [Access.patch?, Access.offset, read]
      cases hit : shift.move? value with
      | none => exact .inr ⟨rfl, overlay_of_read read⟩
      | some moved => exact .inl rfl

private theorem read_of_outside (beyond : buffer.size < offset + 8) :
    buffer.read offset = .error (.outOfBounds offset 8 buffer.size) := by
  simp only [read, check_of_outside beyond, bind, Except.bind]

private theorem writeBytes_of_outside {block : Array UInt8} (beyond : buffer.size < offset + block.size) :
    buffer.writeBytes offset block = .error (.outOfBounds offset block.size buffer.size) := by
  simp only [writeBytes, check_of_outside beyond, bind, Except.bind]

theorem relocate_outside (beyond : buffer.size < offset + 8) (shift : Shift) :
    buffer.relocate offset shift = .error (.outOfBounds offset 8 buffer.size) := by
  simp only [relocate, read_of_outside beyond, bind, Except.bind]

private theorem serve_outside (beyond : buffer.size < access.offset.toNat + access.width) :
    buffer.serve access = .error (.outOfBounds access.offset.toNat access.width buffer.size) := by
  cases access with
  | read offset =>
    have refusal := read_of_outside (show buffer.size < offset.toNat + 8 from beyond)
    simp only [serve, refusal, bind, Except.bind, Access.offset, Access.width]
  | write offset value =>
    have refusal : buffer.write offset.toNat value = .error (.outOfBounds offset.toNat 8 buffer.size) :=
      @writeBytes_of_outside _ _ (Word.toBytes value).toArray beyond
    simp only [serve, refusal, bind, Except.bind, Access.offset, Access.width]
  | writeBytes offset block =>
    have refusal := writeBytes_of_outside (show buffer.size < offset.toNat + block.size from beyond)
    simp only [serve, refusal, bind, Except.bind, Access.offset, Access.width]
  | relocate offset shift =>
    have refusal := relocate_outside (show buffer.size < offset.toNat + 8 from beyond) shift
    simp only [serve, refusal, bind, Except.bind, Access.offset, Access.width]

private theorem after_of_served {reply : Reply} {block : Array UInt8}
    (served : Served (start.after earlier) access reply block) :
    start.after (access :: earlier) = (start.after earlier).overlay access.offset.toNat block ∧
      start.patches (access :: earlier) =
        (access.patch? (start.after earlier)).toList ++ start.patches earlier := by
  simp only [after, patches, served.result, and_self]

private theorem after_of_outside (beyond : (start.after earlier).size < access.offset.toNat + access.width) :
    start.after (access :: earlier) = start.after earlier ∧
      start.patches (access :: earlier) = start.patches earlier := by
  simp only [after, patches, serve_outside beyond, and_self]

private theorem extent_after (start : Buffer) (earlier : List Access) :
    (start.after earlier).size = start.size ∧ (start.after earlier).base = start.base := by
  induction earlier with
  | nil => exact ⟨rfl, rfl⟩
  | cons access earlier ih =>
    rcases Nat.lt_or_ge (start.after earlier).size (access.offset.toNat + access.width) with beyond | fits
    · rwa [(after_of_outside beyond).1]
    · obtain ⟨reply, block, served⟩ := serve_inside fits
      rwa [(after_of_served served).1, size_overlay, base_overlay]

/-- Every byte is the one last put in. -/
theorem byte_after (start : Buffer) (earlier : List Access) (index : Nat) :
    (start.after earlier).bytes[index]? = start.latest index (start.patches earlier) := by
  induction earlier with
  | nil => rfl
  | cons access earlier ih =>
    rcases Nat.lt_or_ge (start.after earlier).size (access.offset.toNat + access.width) with beyond | fits
    · rw [(after_of_outside beyond).1, (after_of_outside beyond).2, ih]
    obtain ⟨reply, block, served⟩ := serve_inside fits
    rw [(after_of_served served).1, (after_of_served served).2]
    rcases served.put with put | ⟨idle, same⟩
    · rw [put, byte_overlay (by rwa [served.width]), ih]
      rfl
    · rw [idle, same, ih]
      rfl

/-- The eight bytes last put in at an offset and above are those of a value, least significant first. -/
def Spells (start : Buffer) (earlier : List Access) (offset : Nat) (value : Word) : Prop :=
  ∃ byte : Fin 8 → UInt8,
    (∀ place : Fin 8, start.latest (offset + place) (start.patches earlier) = some (byte place)) ∧
      value.toNat = ∑ place, (byte place).toNat * 256 ^ (place : Nat)

private theorem spells_of_read {value : Word} (read : (start.after earlier).read offset = .ok value) :
    Spells start earlier offset value := by
  obtain ⟨fits, rfl⟩ := (read_eq_ok_iff _ _ _).mp read
  have held : offset + 8 ≤ (start.after earlier).bytes.size := fits
  refine ⟨fun place => (start.after earlier).bytes[offset + place], ?_, ?_⟩
  · intro place
    rw [← byte_after, Array.getElem?_eq_getElem]
  · have listed : ((start.after earlier).bytes.extract offset (offset + 8)).toList =
        List.ofFn fun place : Fin 8 => (start.after earlier).bytes[offset + place] := by
      apply List.ext_getElem
      · rw [Array.length_toList, size_window fits, List.length_ofFn]
      · intro i _ _
        rw [Array.getElem_toList, Array.getElem_extract, List.getElem_ofFn]
    rw [Word.toNat_ofBytes (by rw [Array.length_toList, size_window fits]), listed, LittleEndian.decode_ofFn]

structure Bounded (start : Buffer) (earlier : List Access) (access : Access) : Prop where
  /-- In 64 bits a sum that does not fit is beyond the bounds. -/
  checked : start.size < UInt64.size → ∀ width : Word, width.toNat = access.width →
    (access.offset.toNat + access.width ≤ start.size ↔
      ∃ stop, Word.add? access.offset width = some stop ∧ stop.toNat ≤ start.size)
  served : access.offset.toNat + access.width ≤ start.size → ∃ reply block,
    (start.after earlier).serve access = .ok (reply, start.after (access :: earlier)) ∧
      access.Answers (Spells start earlier access.offset.toNat) reply block ∧ block.size = access.width ∧
      ∀ index, (start.after (access :: earlier)).bytes[index]? =
        if access.offset.toNat ≤ index ∧ index < access.offset.toNat + access.width then
          block[index - access.offset.toNat]?
        else (start.after earlier).bytes[index]?
  refused : start.size < access.offset.toNat + access.width →
    (start.after earlier).serve access = .error (.outOfBounds access.offset.toNat access.width start.size) ∧
      start.after (access :: earlier) = start.after earlier
  idle : access.patch? (start.after earlier) = none → start.after (access :: earlier) = start.after earlier
  size : (start.after (access :: earlier)).size = start.size
  base : (start.after (access :: earlier)).base = start.base

theorem access_bounded (start : Buffer) (earlier : List Access) (access : Access) :
    Bounded start earlier access := by
  have size := (extent_after start earlier).1
  constructor
  case checked =>
    intro small width same
    rw [← same, ← check_eq_ok_iff_add? small, check_eq_ok_iff]
  case served =>
    intro fits
    rw [← size] at fits
    obtain ⟨reply, block, served⟩ := serve_inside fits
    have next := (after_of_served served).1
    refine ⟨reply, block, next ▸ served.result, served.answers.imp fun _ => spells_of_read, served.width, ?_⟩
    intro index
    rw [next, byte_overlay (by rwa [served.width]), served.width]
  case refused =>
    intro beyond
    rw [← size] at beyond
    exact ⟨size ▸ serve_outside beyond, (after_of_outside beyond).1⟩
  case idle =>
    intro none
    rcases Nat.lt_or_ge (start.after earlier).size (access.offset.toNat + access.width) with beyond | fits
    · exact (after_of_outside beyond).1
    · obtain ⟨reply, block, served⟩ := serve_inside fits
      rcases served.put with put | ⟨_, same⟩
      · cases none.symm.trans put
      · rw [(after_of_served served).1, same]
  case size => exact (extent_after start (access :: earlier)).1
  case base => exact (extent_after start (access :: earlier)).2

-- The last write would run past the end.
example : (Buffer.after ⟨0x1000, #[1, 2, 3, 4, 5, 6, 7, 8, 9, 10, 11]⟩
    [.write 4 0, .writeBytes 2 #[0xAA, 0xBB], .write 3 0xFFFFFFFFFFFFFFFF]).bytes =
      #[1, 2, 0xAA, 0xBB, 0xFF, 0xFF, 0xFF, 0xFF, 0xFF, 0xFF, 0xFF] := by decide +kernel

end Buffer
end Frozen
end CallStacks
