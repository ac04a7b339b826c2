import CallStacks.Frozen.Buffer
import CallStacks.Proofs.StoreRuns

/-! Moving the pointers in a buffer. A buffer is compared with an image of it: some words have been
rewritten, every other byte is the image's. A move of pointers composes with the rewriting. -/

namespace CallStacks.Frozen.Buffer

variable {buffer after image : Buffer} {offset other index : Nat} {word : Word} {shift : Shift}

/-- The words at two offsets share no byte. -/
def Apart (offset other : Nat) : Prop := offset + 8 ≤ other ∨ other + 8 ≤ offset

instance : DecidableRel Apart := fun offset other =>
  inferInstanceAs (Decidable (offset + 8 ≤ other ∨ other + 8 ≤ offset))

instance : Std.Symm Apart := ⟨fun _ _ => Or.symm⟩

def Covered (offset index : Nat) : Prop := offset ≤ index ∧ index < offset + 8

theorem Apart.ne (apart : Apart offset other) : offset ≠ other := by
  simp only [Apart] at apart
  omega

theorem Apart.not_covered (apart : Apart offset other) (covered : Covered other index) :
    ¬ Covered offset index := by
  simp only [Apart, Covered] at apart covered ⊢
  omega

theorem read_congr (size : after.size = buffer.size)
    (same : ∀ index, Covered offset index → after.bytes[index]? = buffer.bytes[index]?) :
    after.read offset = buffer.read offset := by
  have window : after.bytes.extract offset (offset + 8) = buffer.bytes.extract offset (offset + 8) := by
    apply Array.ext_getElem?
    intro i
    simp only [Array.getElem?_extract]
    have sizes : after.bytes.size = buffer.bytes.size := size
    rw [sizes]
    split
    next inside =>
      apply same
      unfold Covered
      omega
    next => rfl
  unfold read check holds
  rw [size, window]

theorem read_apart {slots : List Nat} (size : after.size = buffer.size)
    (rest : ∀ index, (∀ slot ∈ slots, ¬ Covered slot index) → after.bytes[index]? = buffer.bytes[index]?)
    (apart : ∀ slot ∈ slots, Apart slot other) : after.read other = buffer.read other := by
  apply read_congr size
  intro index covered
  apply rest
  exact fun slot within => (apart slot within).not_covered covered

theorem getElem?_overlay_outside (block : Array UInt8)
    (outside : index < offset ∨ offset + block.size ≤ index) :
    (buffer.overlay offset block).bytes[index]? = buffer.bytes[index]? := by
  rw [getElem?_overlay]
  have same : ∀ byte : UInt8, (if offset ≤ index then block.getD (index - offset) byte else byte) = byte := by
    intro byte
    split
    next behind =>
      rw [Array.getD_eq_getD_getElem?, Array.getElem?_eq_none (by omega), Option.getD_none]
    next => rfl
  simp only [same, Option.map_id']

theorem getElem?_overlay_inside (block : Array UInt8) (fits : offset + block.size ≤ buffer.size)
    (inside : index < block.size) :
    (buffer.overlay offset block).bytes[offset + index]? = block[index]? := by
  have held : offset + index < buffer.bytes.size := by
    unfold size at fits
    omega
  rw [getElem?_overlay, Array.getElem?_eq_getElem held, Option.map_some, if_pos (by omega),
    Nat.add_sub_cancel_left, Array.getElem?_eq_getElem inside, Array.getD_eq_getD_getElem?,
    Array.getElem?_eq_getElem inside, Option.getD_some]

@[simp] theorem size_copyOf (base : Word) (memory : Memory) (start : Word) (count : Nat) :
    (copyOf base memory start count).size = count := by
  rw [copyOf, size, List.size_toArray, Memory.length_bytes]

theorem read_of_inside (fits : offset + 8 ≤ buffer.size) : ∃ value, buffer.read offset = .ok value :=
  ⟨_, (read_eq_ok_iff _ _ _).mpr ⟨fits, rfl⟩⟩

theorem writeBytes_of_inside {block : Array UInt8} (fits : offset + block.size ≤ buffer.size) :
    buffer.writeBytes offset block = .ok (buffer.overlay offset block) :=
  (writeBytes_eq_ok_iff _ _ _ _).mpr ⟨fits, rfl⟩

theorem write_of_inside (value : Word) (fits : offset + 8 ≤ buffer.size) :
    buffer.write offset value = .ok (buffer.overlay offset (Word.toBytes value).toArray) :=
  writeBytes_of_inside (by simpa using fits)

theorem byte_overlay {block : Array UInt8} (fits : offset + block.size ≤ buffer.size) (index : Nat) :
    (buffer.overlay offset block).bytes[index]? =
      if offset ≤ index ∧ index < offset + block.size then block[index - offset]? else buffer.bytes[index]? := by
  split
  next inside =>
    have placed := getElem?_overlay_inside block fits (show index - offset < block.size by omega)
    rwa [Nat.add_sub_cancel' inside.1] at placed
  next outside => exact getElem?_overlay_outside block (by omega)

theorem size_window (fits : offset + 8 ≤ buffer.size) : (buffer.bytes.extract offset (offset + 8)).size = 8 := by
  unfold size at fits
  rw [Array.size_extract]
  omega

theorem overlay_of_read {value : Word} (read : buffer.read offset = .ok value) :
    buffer.overlay offset (Word.toBytes value).toArray = buffer := by
  obtain ⟨fits, rfl⟩ := (read_eq_ok_iff _ _ _).mp read
  have eight := size_window fits
  rw [Word.toBytes_ofBytes (by rw [Array.length_toList, eight]), Array.toArray_toList]
  have same : (buffer.overlay offset (buffer.bytes.extract offset (offset + 8))).bytes = buffer.bytes := by
    apply Array.ext_getElem?
    intro index
    rw [byte_overlay (by omega), eight]
    split
    next inside =>
      have held : offset + 8 ≤ buffer.bytes.size := fits
      rw [Array.getElem?_extract, if_pos (by omega), Nat.add_sub_cancel' inside.1]
    next => rfl
  exact congrArg (Buffer.mk buffer.base) same

/-- The eight bytes at an offset of the buffer are those at an address. -/
def Mirrors (buffer : Buffer) (offset : Nat) (memory : Memory) (slot : Word) : Prop :=
  ∀ place < 8, buffer.bytes[offset + place]? = some (memory.byte (slot + UInt64.ofNat place))

theorem Mirrors.read {memory : Memory} {slot : Word} (mirrors : buffer.Mirrors offset memory slot) :
    buffer.read offset = .ok (memory.word slot) := by
  have held : offset + 7 < buffer.bytes.size := (Array.getElem?_eq_some_iff.mp (mirrors 7 (by decide))).1
  have fits : offset + 8 ≤ buffer.size := held
  refine (read_eq_ok_iff _ _ _).mpr ⟨fits, ?_⟩
  rw [Memory.word]
  congr 1
  apply List.ext_getElem
  · rw [Memory.length_bytes, Array.length_toList, size_window fits]
  intro i inside _
  rw [Memory.length_bytes] at inside
  obtain ⟨_, same⟩ := Array.getElem?_eq_some_iff.mp (mirrors i inside)
  rw [Memory.getElem_bytes, Array.getElem_toList, Array.getElem_extract, same]

theorem read_written (wrote : buffer.write offset word = .ok after) : after.read offset = .ok word := by
  obtain ⟨fits, rfl⟩ := (writeBytes_eq_ok_iff _ _ _ _).mp wrote
  have eight : (Word.toBytes word).toArray.size = 8 := by simp
  have window : ((buffer.overlay offset (Word.toBytes word).toArray).bytes.extract offset (offset + 8)) =
      (Word.toBytes word).toArray := by
    apply Array.ext_getElem?
    intro i
    rw [Array.getElem?_extract]
    have sizes : (buffer.overlay offset (Word.toBytes word).toArray).bytes.size = buffer.size :=
      size_overlay _ _ _
    rw [sizes]
    split
    next inside => exact getElem?_overlay_inside _ fits (by omega)
    next outside => rw [Array.getElem?_eq_none (by omega)]
  rw [read_eq_ok_iff, window, size_overlay, List.toList_toArray, Word.ofBytes_toBytes]
  exact ⟨by omega, rfl⟩

theorem byte_written (wrote : buffer.write offset word = .ok after) (outside : ¬ Covered offset index) :
    after.bytes[index]? = buffer.bytes[index]? := by
  obtain ⟨_, rfl⟩ := (writeBytes_eq_ok_iff _ _ _ _).mp wrote
  apply getElem?_overlay_outside
  simp only [List.size_toArray, Word.length_toBytes]
  unfold Covered at outside
  omega

/-- Moving a pointer changes the word it is in, if that points into the range, and nothing else. -/
structure Moved (shift : Shift) (offset : Nat) (buffer after : Buffer) (flag : Bool) : Prop where
  base : after.base = buffer.base
  size : after.size = buffer.size
  slot : ∃ word, buffer.read offset = .ok word ∧ after.read offset = .ok ((shift.move? word).getD word) ∧
    flag = (shift.move? word).isSome
  rest : ∀ index, ¬ Covered offset index → after.bytes[index]? = buffer.bytes[index]?

theorem relocate_of_read {value : Word} {shift : Shift} (read : buffer.read offset = .ok value) :
    buffer.relocate offset shift =
      .ok (buffer.overlay offset (Word.toBytes ((shift.move? value).getD value)).toArray,
        (shift.move? value).isSome) := by
  have fits := ((read_eq_ok_iff _ _ _).mp read).1
  unfold relocate
  simp only [read, bind, Except.bind]
  cases hit : shift.move? value with
  | none =>
    simp only [Option.getD_none, overlay_of_read read]
    rfl
  | some moved =>
    simp only [write_of_inside moved fits]
    rfl

theorem relocate_spec {flag : Bool} (done : buffer.relocate offset shift = .ok (after, flag)) :
    Moved shift offset buffer after flag := by
  have ran := done
  unfold relocate at ran
  obtain ⟨value, read, _⟩ := CallStacks.Failure.bind_eq_ok.mp ran
  have wrote := write_of_inside ((shift.move? value).getD value) ((read_eq_ok_iff _ _ _).mp read).1
  rw [relocate_of_read read] at done
  cases done
  exact ⟨rfl, size_overlay _ _ _, ⟨value, read, read_written wrote, rfl⟩, fun _ => byte_written wrote⟩

/-- Move the pointers at some offsets, one after another. Gives the offsets of those that point
elsewhere. -/
def relocateAll (shift : Shift) : List Nat → Buffer → Except Refusal (List Nat × Buffer)
  | [], buffer => .ok ([], buffer)
  | offset :: rest, buffer => do
    let (buffer, moved) ← buffer.relocate offset shift
    let (left, buffer) ← relocateAll shift rest buffer
    return (if moved then left else offset :: left, buffer)

theorem extent_of_relocateAll {offsets left : List Nat}
    (done : relocateAll shift offsets buffer = .ok (left, after)) :
    after.base = buffer.base ∧ after.size = buffer.size := by
  induction offsets generalizing buffer left with
  | nil =>
    cases done
    exact ⟨rfl, rfl⟩
  | cons offset others ih =>
    obtain ⟨⟨middle, flag⟩, ran, done⟩ := CallStacks.Failure.bind_eq_ok.mp done
    obtain ⟨⟨remaining, last⟩, more, done⟩ := CallStacks.Failure.bind_eq_ok.mp done
    cases done
    have one := relocate_spec ran
    exact ⟨(ih more).1.trans one.base, (ih more).2.trans one.size⟩

structure MovedAll (shift : Shift) (offsets left : List Nat) (buffer after : Buffer) : Prop where
  base : after.base = buffer.base
  size : after.size = buffer.size
  slots : ∀ offset ∈ offsets, ∃ word, buffer.read offset = .ok word ∧
    after.read offset = .ok ((shift.move? word).getD word) ∧ (offset ∈ left ↔ shift.move? word = none)
  rest : ∀ index, (∀ offset ∈ offsets, ¬ Covered offset index) → after.bytes[index]? = buffer.bytes[index]?
  remaining : left.Sublist offsets

theorem MovedAll.read_apart {offsets left : List Nat} (moved : MovedAll shift offsets left buffer after)
    (apart : ∀ offset ∈ offsets, Apart offset other) : after.read other = buffer.read other :=
  Buffer.read_apart moved.size moved.rest apart

theorem relocateAll_spec {offsets left : List Nat} (apart : offsets.Pairwise Apart)
    (done : relocateAll shift offsets buffer = .ok (left, after)) :
    MovedAll shift offsets left buffer after := by
  induction offsets generalizing buffer left with
  | nil =>
    cases done
    exact ⟨rfl, rfl, by simp, fun _ _ => rfl, .slnil⟩
  | cons offset others ih =>
    obtain ⟨separate, apart⟩ := List.pairwise_cons.mp apart
    obtain ⟨⟨middle, flag⟩, ran, done⟩ := CallStacks.Failure.bind_eq_ok.mp done
    obtain ⟨⟨remaining, last⟩, more, done⟩ := CallStacks.Failure.bind_eq_ok.mp done
    cases done
    have one := relocate_spec ran
    have many := ih apart more
    obtain ⟨word, read, read', rfl⟩ := one.slot
    have untouched : ∀ other ∈ others, middle.read other = buffer.read other := by
      intro other within
      apply read_congr one.size
      intro index covered
      apply one.rest
      exact (separate other within).not_covered covered
    have later : after.read offset = middle.read offset := by
      apply many.read_apart
      exact fun other within => Or.symm (separate other within)
    have absent : offset ∉ remaining := fun within =>
      (separate offset (many.remaining.subset within)).ne rfl
    refine ⟨many.base.trans one.base, many.size.trans one.size, ?_, ?_, ?_⟩
    · intro other within
      rcases List.mem_cons.mp within with rfl | inner
      · refine ⟨word, read, later.trans read', ?_⟩
        cases hit : shift.move? word with
        | none => simp
        | some moved => simpa using absent
      · obtain ⟨word', read, read', left⟩ := many.slots other inner
        rw [untouched other inner] at read
        refine ⟨word', read, read', ?_⟩
        have different : other ≠ offset := (separate other inner).ne.symm
        rw [← left]
        split <;> simp [different]
    · intro index outside
      rw [many.rest index fun other within => outside other (List.mem_cons_of_mem _ within)]
      exact one.rest index (outside offset List.mem_cons_self)
    · split
      · exact many.remaining.cons _
      · exact many.remaining.cons_cons _

end CallStacks.Frozen.Buffer
