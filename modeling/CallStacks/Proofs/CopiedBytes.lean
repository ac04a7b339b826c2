import CallStacks.Frozen.Capture
import CallStacks.Proofs.BufferMoves

/-! The bytes that a frame is copied with, before any pointer is followed: the stack's own, except where
the frame has saved a register. There its current value counts. -/

namespace CallStacks.Frozen.LiveFrame

variable {frame : LiveFrame} {context : CaptureContext} {buffer image : Buffer} {memory : Memory}
  {registers : List Register} {saved : List SavedRegister} {register : Register} {index offset : Nat}

def savedByte? (frame : LiveFrame) (index : Nat) (register : Register) : Option UInt8 :=
  match frame.registers register with
  | none => none
  | some slots =>
    if slots.isSaved && (slots.callerLocation - frame.sp).toNat ≤ index then
      (LittleEndian.encode register.width slots.value.toNat)[index - (slots.callerLocation - frame.sp).toNat]?
    else none

/-- What a frame is copied with at an index. If save slots overlap, the register asked for last counts. -/
def copiedByte (frame : LiveFrame) (memory : Memory) (index : Nat) : UInt8 :=
  (Register.all.reverse.findSome? (frame.savedByte? index)).getD
    (memory.byte (frame.sp + UInt64.ofNat index))

def copiedWord (frame : LiveFrame) (memory : Memory) (offset : Nat) : Word :=
  Word.ofBytes (List.ofFn fun i : Fin 8 => frame.copiedByte memory (offset + i))

theorem toNat_of_offsetOf {addr : Word} {offset : UInt32} (done : frame.offsetOf addr = .ok offset) :
    offset.toNat = (addr - frame.sp).toNat := by
  unfold offsetOf at done
  split at done
  next bounds =>
    cases done
    rw [UInt64.toNat_toUInt32]
    exact Nat.mod_eq_of_lt bounds.2
  next => cases done

/-- How the first of some registers is dealt with: the frame may not have it, or has not saved it, or has saved it. Only
in the last case is its value laid into the copy. -/
inductive SavesFirst (frame : LiveFrame) (register : Register) (rest : List Register) (buffer : Buffer)
    (saved : List SavedRegister) (image : Buffer) : Prop
  | absent (asked : frame.registers register = none) (more : frame.saveRegisters rest buffer = .ok (saved, image))
  | noted {slots : RegisterSlots} {others : List SavedRegister} (asked : frame.registers register = some slots)
      (unsaved : slots.isSaved = false) (same : saved = ⟨register, slots, none⟩ :: others)
      (more : frame.saveRegisters rest buffer = .ok (others, image))
  | laid {slots : RegisterSlots} {offset : UInt32} {others : List SavedRegister}
      (asked : frame.registers register = some slots) (isSaved : slots.isSaved = true)
      (placed : frame.offsetOf slots.callerLocation = .ok offset)
      (fits : offset.toNat + register.width ≤ buffer.size) (same : saved = ⟨register, slots, some offset⟩ :: others)
      (more : frame.saveRegisters rest (buffer.overlay offset.toNat
        (LittleEndian.encode register.width slots.value.toNat).toArray) = .ok (others, image))

theorem savesFirst_of_cons (done : frame.saveRegisters (register :: registers) buffer = .ok (saved, image)) :
    frame.SavesFirst register registers buffer saved image := by
  unfold saveRegisters at done
  cases asked : frame.registers register with
  | none =>
    simp only [asked] at done
    exact .absent asked done
  | some slots =>
    simp only [asked] at done
    split at done
    next isSaved =>
      obtain ⟨offset, placed, done⟩ := CallStacks.Failure.bind_eq_ok.mp done
      obtain ⟨laid, wrote, done⟩ := CallStacks.Failure.bind_eq_ok.mp done
      obtain ⟨⟨others, last⟩, more, done⟩ := CallStacks.Failure.bind_eq_ok.mp done
      cases done
      obtain ⟨fits, rfl⟩ := (Buffer.writeBytes_eq_ok_iff _ _ _ _).mp (insist_eq_ok.mp wrote)
      exact .laid asked isSaved placed (by simpa using fits) rfl more
    next unsaved =>
      obtain ⟨⟨others, last⟩, more, done⟩ := CallStacks.Failure.bind_eq_ok.mp done
      cases done
      exact .noted asked (Bool.eq_false_iff.mpr unsaved) rfl more

private theorem saveRegisters_spec (done : frame.saveRegisters registers buffer = .ok (saved, image)) :
    image.base = buffer.base ∧ image.size = buffer.size ∧ ∀ index, image.bytes[index]? =
      buffer.bytes[index]?.map fun byte =>
        (registers.reverse.findSome? (frame.savedByte? index)).getD byte := by
  induction registers generalizing buffer saved with
  | nil =>
    cases done
    refine ⟨rfl, rfl, fun index => ?_⟩
    simp only [List.reverse_nil, List.findSome?_nil, Option.getD_none, Option.map_id']
  | cons register rest ih =>
    have turned : ∀ index, (register :: rest).reverse.findSome? (frame.savedByte? index) =
        (rest.reverse.findSome? (frame.savedByte? index)).or (frame.savedByte? index register) := by
      intro index
      rw [List.reverse_cons, List.findSome?_append]
      simp
    cases savesFirst_of_cons done with
    | absent asked more =>
      have none_here : ∀ index, frame.savedByte? index register = none := by
        intro index
        simp only [savedByte?, asked]
      simpa only [turned, none_here, Option.or_none] using ih more
    | noted asked unsaved _ more =>
      have none_here : ∀ index, frame.savedByte? index register = none := by
        intro index
        simp only [savedByte?, asked, unsaved, Bool.false_and, Bool.false_eq_true, if_false]
      simpa only [turned, none_here, Option.or_none] using ih more
    | @laid slots offset _ asked isSaved placed _ _ more =>
      have place := toNat_of_offsetOf placed
      obtain ⟨base, size, bytes⟩ := ih more
      refine ⟨base, size.trans (Buffer.size_overlay _ _ _), fun index => ?_⟩
      rw [bytes, Buffer.getElem?_overlay, turned, Option.map_map]
      congr 1
      funext byte
      have here : frame.savedByte? index register = if offset.toNat ≤ index then
          (LittleEndian.encode register.width slots.value.toNat)[index - offset.toNat]? else none := by
        simp only [savedByte?, asked, isSaved, place, Bool.true_and, decide_eq_true_eq]
      rw [here, Function.comp_apply, Array.getD_eq_getD_getElem?, List.getElem?_toArray]
      cases rest.reverse.findSome? (frame.savedByte? index) with
      | some saved => rfl
      | none =>
        rw [Option.none_or, Option.getD_none]
        split <;> rfl

/-- The copy of a frame shows the bytes that it is copied with. -/
theorem copiedByte_of_saveRegisters {base : Word} {size : Nat}
    (done : frame.saveRegisters Register.all (Buffer.copyOf base memory frame.sp size) = .ok (saved, image)) :
    image.base = base ∧ image.size = size ∧
      ∀ index < size, image.bytes[index]? = some (frame.copiedByte memory index) := by
  obtain ⟨sameBase, sameSize, bytes⟩ := saveRegisters_spec done
  refine ⟨sameBase, sameSize.trans (Buffer.size_copyOf _ _ _ _), fun index inside => ?_⟩
  have shown : (Buffer.copyOf base memory frame.sp size).bytes[index]? =
      some (memory.byte (frame.sp + UInt64.ofNat index)) := by
    have known : index < (memory.bytes frame.sp size).length := by simpa using inside
    rw [Buffer.copyOf, List.getElem?_toArray, List.getElem?_eq_getElem known, Memory.getElem_bytes]
  rw [bytes, shown]
  rfl

theorem read_copiedWord (fits : offset + 8 ≤ image.size)
    (bytes : ∀ i < 8, image.bytes[offset + i]? = some (frame.copiedByte memory (offset + i))) :
    image.read offset = .ok (frame.copiedWord memory offset) := by
  have window : (image.bytes.extract offset (offset + 8)).toList =
      List.ofFn fun i : Fin 8 => frame.copiedByte memory (offset + i) := by
    apply List.ext_getElem?
    intro i
    rw [Array.getElem?_toList, Array.getElem?_extract, List.getElem?_ofFn]
    have whole : offset + 8 ≤ image.bytes.size := fits
    by_cases inside : i < 8
    · rw [if_pos (by omega), dif_pos inside]
      exact bytes i inside
    · rw [if_neg (by omega), dif_neg inside]
  exact (Buffer.read_eq_ok_iff _ _ _).mpr ⟨fits, by rw [window, copiedWord]⟩

theorem copiedWord_of_read {size : Nat} {word : Word} (sizes : image.size = size)
    (bytes : ∀ index < size, image.bytes[index]? = some (frame.copiedByte memory index))
    (read : image.read offset = .ok word) : word = frame.copiedWord memory offset := by
  have fits := ((Buffer.read_eq_ok_iff _ _ _).mp read).1
  exact Except.ok.inj (read.symm.trans (read_copiedWord fits fun i inside => bytes (offset + i) (by omega)))

end CallStacks.Frozen.LiveFrame
