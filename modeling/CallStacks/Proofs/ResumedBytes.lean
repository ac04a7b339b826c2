import CallStacks.Frozen.Resume
import CallStacks.Proofs.BufferMoves

/-! What a resumed frame finds on the stack: the bytes of its buffer, and the return address laid over
them. -/

namespace CallStacks.Frozen

variable {buffer : Buffer} {memory after : Memory} {sp value : Word} {place slot : Nat}

private theorem toNat_distance (sp : Word) {first second : Nat} (low : first < 0x200000000)
    (high : second < 0x200000000) :
    ((sp + UInt64.ofNat first) - (sp + UInt64.ofNat second)).toNat =
      if second ≤ first then first - second else 0x10000000000000000 + first - second := by
  have bound := sp.toNat_lt
  rw [UInt64.toNat_sub, UInt64.toNat_add, UInt64.toNat_add, UInt64.toNat_ofNat', UInt64.toNat_ofNat']
  split <;> omega

/-- The bytes of a buffer stand on the stack from the stack pointer up, except where the return address
stands. -/
structure Landed (buffer : Buffer) (sp returnAddress : Word) (place : Nat) (memory : Memory) : Prop where
  returned : memory.word (sp + UInt64.ofNat place) = returnAddress
  byte : ∀ index byte, buffer.bytes[index]? = some byte → ¬ Buffer.Covered place index →
    memory.byte (sp + UInt64.ofNat index) = byte

theorem Landed.word {returnAddress : Word} (landed : Landed buffer sp returnAddress place memory)
    (apart : Buffer.Apart slot place) (read : buffer.read slot = .ok value) :
    memory.word (sp + UInt64.ofNat slot) = value := by
  have held : slot + 8 ≤ buffer.bytes.size := ((Buffer.read_eq_ok_iff _ _ _).mp read).1
  have mirrors : buffer.Mirrors slot memory (sp + UInt64.ofNat slot) := by
    intro i inside
    have known : buffer.bytes[slot + i]? = some buffer.bytes[slot + i] := Array.getElem?_eq_getElem _
    have outside : ¬ Buffer.Covered place (slot + i) := by
      intro covered
      apply apart.not_covered covered
      exact ⟨Nat.le_add_right _ _, by omega⟩
    rw [UInt64.add_assoc, ← UInt64.ofNat_add, landed.byte _ _ known outside, known]
  exact Except.ok.inj (mirrors.read.symm.trans read)

theorem FrozenFrame.splice_spec {frame : FrozenFrame} {value : ResumeValue} {landing finish : Landing}
    {reloads : List Reload} (whole : frame.layout.unrecorded = 0) (small : frame.buffer.size ≤ UInt32.size)
    (done : frame.splice value landing memory = .ok (reloads, finish, after)) :
    Landed frame.buffer landing.sp landing.returnAddress frame.layout.returnOffset.toNat after := by
  unfold FrozenFrame.splice at done
  obtain ⟨address, added, done⟩ := CallStacks.Failure.bind_eq_ok.mp done
  have slot : address = landing.sp + UInt64.ofNat frame.layout.returnOffset.toNat := by
    have wide : frame.layout.returnOffset.toUInt64 = UInt64.ofNat frame.layout.returnOffset.toNat :=
      UInt64.toNat_inj.mp (by simp)
    unfold Word.add? at added
    split at added
    · cases added
      rw [wide]
    · cases added
  dsimp only at done
  split at done
  next =>
    cases done
    have start : frame.destination landing.sp = landing.sp + UInt64.ofNat 0 := by
      rw [FrozenFrame.destination, whole]
      rfl
    refine ⟨by rw [slot, Memory.word_writeWord], fun index byte held outside => ?_⟩
    have inside := (Array.getElem?_eq_some_iff.mp held).1
    have near := frame.layout.returnOffset.toNat_lt
    simp only [Buffer.size, UInt32.size] at small
    unfold Buffer.Covered at outside
    rw [slot, Memory.writeWord, Memory.byte_write_outside, start, Memory.byte_write]
    · have distance : (landing.sp + UInt64.ofNat index - (landing.sp + UInt64.ofNat 0)).toNat = index := by
        rw [toNat_distance landing.sp (by omega) (by decide), if_pos (Nat.zero_le _), Nat.sub_zero]
      rw [dif_pos (by rw [distance]; exact inside)]
      simp only [distance]
      exact (Array.getElem?_eq_some_iff.mp held).2
    · rw [toNat_distance landing.sp (by omega) (by omega), List.size_toArray, Word.length_toBytes]
      split <;> omega
  next => cases done

end CallStacks.Frozen
