import CallStacks.Proofs.BufferAccesses

/-! Pointers under a move of the range they point into. A pointer keeps its distance to the start of the range, also
where the range or its new place runs past the top of memory, and the opposite move restores it. A buffer and the
memory that hold the same eight bytes hold the same eight bytes after the pointer in them has been moved in both. -/

namespace CallStacks

namespace Memory

variable {memory : Memory} {start addr value : Word}

private theorem getElem?_write_inside (memory : Memory) (start : Word) (block : Array UInt8) {place : Nat}
    (inside : place < block.size) (small : block.size ≤ UInt64.size) :
    some ((memory.write start block).byte (start + UInt64.ofNat place)) = block[place]? := by
  have distance : (start + UInt64.ofNat place - start).toNat = place := by
    rw [UInt64.add_comm, UInt64.add_sub_cancel, UInt64.toNat_ofNat']
    exact Nat.mod_eq_of_lt (Nat.lt_of_lt_of_le inside small)
  rw [byte_write, dif_pos (distance.symm ▸ inside), Array.getElem?_eq_getElem inside]
  simp only [distance]

private theorem writeWord_word (memory : Memory) (start : Word) :
    memory.writeWord start (memory.word start) = memory := by
  ext addr
  rw [writeWord, byte_write, word, Word.toBytes_ofBytes (memory.length_bytes start 8)]
  split
  next inside =>
    rw [List.getElem_toArray, getElem_bytes, UInt64.ofNat_toNat, UInt64.add_comm, UInt64.sub_add_cancel]
  next => rfl

end Memory

namespace Frozen

namespace Shift

variable {source target size addr moved : Word} {shift : Shift}

private theorem isSome_move? (shift : Shift) (addr : Word) : (shift.move? addr).isSome = shift.covers addr := by
  unfold move?
  cases shift.covers addr <;> rfl

private theorem move?_eq_some_iff :
    shift.move? addr = some moved ↔ shift.covers addr = true ∧ addr + shift.distance = moved := by
  rw [move?, Option.ite_none_right_eq_some, Option.some.injEq]

/-- In memory too the word is laid down again, moved or not. -/
theorem applyAt_eq (shift : Shift) (memory : Memory) (slot : Word) :
    shift.applyAt memory slot =
      (memory.writeWord slot ((shift.move? (memory.word slot)).getD (memory.word slot)),
        (shift.move? (memory.word slot)).isSome) := by
  unfold applyAt
  cases shift.move? (memory.word slot) with
  | none => rw [Option.getD_none, memory.writeWord_word, Option.isSome_none]
  | some moved => rfl

private theorem toNat_of_move? (hit : (between source target size).move? addr = some moved) :
    moved.toNat = (target.toNat + (addr.toNat - source.toNat)) % UInt64.size := by
  obtain ⟨covered, rfl⟩ := move?_eq_some_iff.mp hit
  have above : source ≤ addr := UInt64.le_iff_toNat_le.mpr ((covers_iff _ _).mp covered).1
  have around : addr + (target - source) = target + (addr - source) := by grind
  rw [between, around, UInt64.toNat_add, UInt64.toNat_sub_of_le _ _ above]

/-- The opposite move takes a pointer back exactly if its new place does not lie past the top of memory. -/
theorem move?_back_iff (hit : (between source target size).move? addr = some moved) :
    (between target source size).move? moved = some addr ↔
      target.toNat + (addr.toNat - source.toNat) < UInt64.size := by
  have place := toNat_of_move? hit
  obtain ⟨covered, sum⟩ := move?_eq_some_iff.mp hit
  obtain ⟨above, inside⟩ := (covers_iff _ _).mp covered
  have back : moved + (source - target) = addr := by
    rw [← sum, between]
    grind
  rw [move?_eq_some_iff, covers_iff]
  simp only [between] at above inside back ⊢
  have := target.toNat_lt
  have := size.toNat_lt
  rw [UInt64.size] at place ⊢
  constructor
  · rintro ⟨⟨reached, _⟩, _⟩
    omega
  · intro below
    rw [Nat.mod_eq_of_lt below] at place
    exact ⟨by omega, back⟩

/-- A move of a range is exact on the pointers into it and can be taken back. -/
structure Exact (source target size : Word) : Prop where
  moves : ∀ addr, ((between source target size).move? addr).isSome = true ↔
    source.toNat ≤ addr.toNat ∧ addr.toNat - source.toNat < size.toNat
  place : ∀ addr moved, (between source target size).move? addr = some moved →
    moved.toNat = (target.toNat + (addr.toNat - source.toNat)) % UInt64.size
  back : target.toNat + size.toNat ≤ UInt64.size → ∀ addr moved,
    (between source target size).move? addr = some moved → (between target source size).move? moved = some addr

private theorem between_exact (source target size : Word) : Exact source target size := by
  constructor
  case moves =>
    intro addr
    rw [isSome_move?, covers_iff]
    rfl
  case place => exact fun addr moved => toNat_of_move?
  case back =>
    intro whole addr moved hit
    have inside := ((covers_iff _ _).mp (move?_eq_some_iff.mp hit).1).2
    simp only [between] at inside
    exact (move?_back_iff hit).mpr (by omega)

end Shift

namespace Buffer

variable {buffer : Buffer} {memory : Memory} {offset : Nat} {slot value : Word} {shift : Shift}

private theorem mirrors_overlay (memory : Memory) (slot value : Word) (fits : offset + 8 ≤ buffer.size) :
    (buffer.overlay offset (Word.toBytes value).toArray).Mirrors offset (memory.writeWord slot value) slot := by
  intro place inside
  have eight : (Word.toBytes value).toArray.size = 8 := by simp
  rw [Memory.writeWord, Memory.getElem?_write_inside memory slot _ (by omega) (eight ▸ by decide)]
  exact getElem?_overlay_inside _ (by omega) (by omega)

/-- A pointer in eight bytes of a buffer and of the memory has been moved, or left, in both. -/
structure Agrees (shift : Shift) (offset : Nat) (slot : Word) (buffer after : Buffer) (memory later : Memory)
    (flag : Bool) : Prop where
  told : flag = (shift.move? (memory.word slot)).isSome
  word : later.word slot = (shift.move? (memory.word slot)).getD (memory.word slot)
  mirrors : after.Mirrors offset later slot
  size : after.size = buffer.size
  buffer_rest : ∀ index, ¬ Covered offset index → after.bytes[index]? = buffer.bytes[index]?
  memory_rest : ∀ addr, 8 ≤ (addr - slot).toNat → later.byte addr = memory.byte addr
  idle : flag = false → after = buffer ∧ later = memory

private theorem relocate_agrees (mirrors : buffer.Mirrors offset memory slot) (shift : Shift) :
    ∃ after flag, buffer.relocate offset shift = .ok (after, flag) ∧ (shift.applyAt memory slot).2 = flag ∧
      Agrees shift offset slot buffer after memory (shift.applyAt memory slot).1 flag := by
  have read := mirrors.read
  have fits := ((read_eq_ok_iff _ _ _).mp read).1
  refine ⟨_, _, relocate_of_read read, by rw [Shift.applyAt_eq], ?_⟩
  rw [Shift.applyAt_eq]
  constructor
  case told => rfl
  case word => rw [Memory.word_writeWord]
  case mirrors => exact mirrors_overlay memory slot _ fits
  case size => rw [size_overlay]
  case buffer_rest =>
    intro index outside
    exact byte_written (write_of_inside _ fits) outside
  case memory_rest =>
    intro addr outside
    exact Memory.byte_write_outside memory slot _ (by simpa using outside)
  case idle =>
    intro left
    rw [Option.isSome_eq_false_iff, Option.isNone_iff_eq_none] at left
    rw [left, Option.getD_none]
    exact ⟨overlay_of_read read, memory.writeWord_word slot⟩

private theorem exists_mirrors (slot : Word) (fits : offset + 8 ≤ buffer.size) :
    ∃ memory : Memory, buffer.Mirrors offset memory slot := by
  have eight := size_window fits
  refine ⟨Memory.blank.write slot (buffer.bytes.extract offset (offset + 8)), ?_⟩
  intro place inside
  have held : offset + 8 ≤ buffer.bytes.size := fits
  have small : (buffer.bytes.extract offset (offset + 8)).size ≤ UInt64.size := by
    rw [eight]
    decide
  rw [Memory.getElem?_write_inside _ slot _ (by omega) small, Array.getElem?_extract, if_pos (by omega)]

end Buffer

/-- The move of a range is exact on every word, and the pointer at any place of a buffer moves as it does in a memory
that holds the same bytes. Past the end of the buffer nothing moves. -/
structure Shift.Faithful (source target size : Word) : Prop extends Shift.Exact source target size where
  mirrored : ∀ (buffer : Buffer) (offset : Nat) (slot : Word), offset + 8 ≤ buffer.size →
    ∃ memory, buffer.Mirrors offset memory slot
  agrees : ∀ (buffer : Buffer) (offset : Nat) (memory : Memory) (slot : Word), buffer.Mirrors offset memory slot →
    ∃ after flag, buffer.relocate offset (between source target size) = .ok (after, flag) ∧
      ((between source target size).applyAt memory slot).2 = flag ∧
      Buffer.Agrees (between source target size) offset slot buffer after memory
        ((between source target size).applyAt memory slot).1 flag
  refused : ∀ (buffer : Buffer) (offset : Word), buffer.size < offset.toNat + 8 →
    buffer.relocate offset.toNat (between source target size) = .error (.outOfBounds offset.toNat 8 buffer.size) ∧
      buffer.after [.relocate offset (between source target size)] = buffer

theorem Shift.between_faithful (source target size : Word) : Faithful source target size := by
  constructor
  case toExact => exact between_exact source target size
  case mirrored => exact fun _ _ slot fits => Buffer.exists_mirrors slot fits
  case agrees => exact fun _ _ _ _ mirrors => Buffer.relocate_agrees mirrors _
  case refused =>
    intro buffer offset beyond
    have refusal := Buffer.relocate_outside beyond (between source target size)
    refine ⟨refusal, ?_⟩
    simp only [Buffer.after, Buffer.serve, refusal, bind, Except.bind]

example : ∃ moved, (Shift.between 0xFFFFFFFFFFFFFF00 0x1000 0x1000).move? 0xFFFFFFFFFFFFFFF8 = some moved ∧
    (Shift.between 0x1000 0xFFFFFFFFFFFFFF00 0x1000).move? moved = some 0xFFFFFFFFFFFFFFF8 :=
  ⟨0x10F8, by decide, by decide⟩

end Frozen
end CallStacks
