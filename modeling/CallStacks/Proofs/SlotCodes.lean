import CallStacks.Proofs.CaptureFailures
import CallStacks.Proofs.RecordedPlaces

/-! The signed numbers that stand for interior slots. The sign is the only room for the pinned flag, so an offset that
takes all thirty-two bits gives the number of another slot: of the complement of the offset, with the opposite flag.
Captures do record such offsets. -/

namespace CallStacks.Frozen

namespace InteriorSlot

variable {slot other : InteriorSlot}

/-- The slot that has the same number as another. -/
def mirror (slot : InteriorSlot) : InteriorSlot := ⟨~~~slot.offset, !slot.pinned⟩

@[simp] theorem mirror_mirror (slot : InteriorSlot) : slot.mirror.mirror = slot := by
  rw [mirror, mirror, UInt32.not_not, Bool.not_not]

private theorem mirror_ne (slot : InteriorSlot) : slot.mirror ≠ slot := by
  intro same
  have flag : (!slot.pinned) = slot.pinned := congrArg InteriorSlot.pinned same
  simp at flag

private theorem toInt32_neg_iff (offset : UInt32) : offset.toInt32 < 0 ↔ 0x80000000 ≤ offset := by
  rw [Int32.lt_iff_toBitVec_slt, UInt32.toBitVec_toInt32, UInt32.le_iff_toNat_le]
  exact BitVec.slt_zero_iff_msb_cond.trans (by rw [BitVec.msb_eq_decide, decide_eq_true_iff]; rfl)

private theorem le_not_iff (offset : UInt32) : 0x80000000 ≤ ~~~offset ↔ offset < 0x80000000 := by
  rw [UInt32.le_iff_toNat_le, UInt32.lt_iff_toNat_lt, UInt32.toNat_not]
  change 0x80000000 ≤ 0x100000000 - 1 - offset.toNat ↔ offset.toNat < 0x80000000
  omega

private theorem ofEncoded_toInt32 (offset : UInt32) :
    ofEncoded offset.toInt32 = if 0x80000000 ≤ offset then ⟨~~~offset, true⟩ else ⟨offset, false⟩ := by
  simp only [ofEncoded, toInt32_neg_iff, ← UInt32.toInt32_not, UInt32.toUInt32_toInt32]

/-- The number gives the slot back if its offset leaves the sign free, and else the other one. -/
theorem ofEncoded_encoded (slot : InteriorSlot) :
    ofEncoded slot.encoded = if slot.offset < 0x80000000 then slot else slot.mirror := by
  obtain ⟨offset, pinned⟩ := slot
  cases pinned with
  | false =>
    have low : offset < 0x80000000 ↔ ¬ 0x80000000 ≤ offset := UInt32.not_le.symm
    simp only [encoded, ofEncoded_toInt32, low, ite_not, mirror, Bool.false_eq_true, if_false, Bool.not_false]
  | true =>
    simp only [encoded, if_true, ← UInt32.toInt32_not, ofEncoded_toInt32, le_not_iff, UInt32.not_not, mirror,
      Bool.not_true]

private theorem ofEncoded_encoded_eq_iff : ofEncoded slot.encoded = slot ↔ slot.offset < 0x80000000 := by
  rw [ofEncoded_encoded]
  split
  next low => exact iff_of_true rfl low
  next high => exact iff_of_false slot.mirror_ne high

private theorem encoded_ofEncoded (code : Int32) : (ofEncoded code).encoded = code := by
  unfold ofEncoded encoded
  split
  next => simp
  next => simp

private theorem encoded_mirror (slot : InteriorSlot) : slot.mirror.encoded = slot.encoded := by
  obtain ⟨offset, pinned⟩ := slot
  cases pinned <;> simp [mirror, encoded]

private theorem encoded_eq_iff : slot.encoded = other.encoded ↔ slot = other ∨ slot = other.mirror := by
  constructor
  · intro same
    have back : ofEncoded slot.encoded = ofEncoded other.encoded := by rw [same]
    rw [ofEncoded_encoded, ofEncoded_encoded] at back
    split at back <;> split at back
    · exact .inl back
    · exact .inr back
    · exact .inr (by rw [← back, mirror_mirror])
    · exact .inl (by rw [← mirror_mirror slot, back, mirror_mirror])
  · rintro (rfl | rfl)
    · rfl
    · exact encoded_mirror other

end InteriorSlot

theorem LiveFrame.offsetOf_add {live : LiveFrame} {offset : UInt32}
    (room : live.sp.toNat + offset.toNat < UInt64.size) :
    live.offsetOf (live.sp + offset.toUInt64) = .ok offset := by
  have distance : live.sp + offset.toUInt64 - live.sp = offset.toUInt64 := by
    rw [UInt64.add_comm, UInt64.add_sub_cancel]
  have above : live.sp ≤ live.sp + offset.toUInt64 := by
    rw [UInt64.le_iff_toNat_le, UInt64.toNat_add, UInt32.toNat_toUInt64, Nat.mod_eq_of_lt room]
    exact Nat.le_add_right _ _
  have short : (live.sp + offset.toUInt64 - live.sp).toNat < UInt32.size := by
    rw [distance, UInt32.toNat_toUInt64]
    exact offset.toNat_lt
  rw [offsetOf, if_pos ⟨above, short⟩, distance, UInt32.toUInt32_toUInt64]

namespace Freezer

variable {slot : InteriorSlot}

/-- A frame as long as a frame can be, with an interior pointer in a slot. -/
def longFrame (slot : InteriorSlot) : LiveFrame :=
  { holdsMark := true
    sp := 0x1000
    callerSp := 0x100000FFF
    returnSlot := 0x1000
    references := [⟨0x1000 + slot.offset.toUInt64, true, slot.pinned⟩] }

private theorem measured_longFrame (slot : InteriorSlot) : (longFrame slot).Measured 0 := by
  constructor
  case ordered => exact (by decide : (0x1000 : Word) ≤ 0x100000FFF)
  case ends => exact (by decide : (0x100000FFF : Word).toNat + max 0 0 < UInt64.size)
  case short => exact (by decide : (0x100000FFF : Word).toNat + max 0 0 - (0x1000 : Word).toNat < UInt32.size)

/-- Reading the pointer is all that is done with it, since the stack is said to end at once. -/
theorem record_longFrame {context : CaptureContext} {image : Buffer} (limit : context.limit = 0)
    (fits : slot.offset.toNat + 8 ≤ image.size) :
    References.record context [] (longFrame slot) [] { buffer := image }
        ⟨0x1000 + slot.offset.toUInt64, true, slot.pinned⟩ =
      .ok { buffer := image, interiors := [slot] } := by
  have found : (longFrame slot).offsetOf (0x1000 + slot.offset.toUInt64) = .ok slot.offset := by
    apply LiveFrame.offsetOf_add
    have := slot.offset.toNat_lt
    change 0x1000 + slot.offset.toNat < 0x10000000000000000
    omega
  obtain ⟨target, held⟩ := Buffer.read_of_inside fits
  have read := insist_eq_ok.mpr held
  have beyond : ¬ target < 0 := UInt64.not_lt.mpr UInt64.zero_le
  simp only [References.record, SavedRegister.offsetOf, List.find?_nil, found, read, limit, Bool.not_true,
    Bool.and_false, beyond, decide_false, bind, Except.bind, pure, Except.pure, List.findSome?_nil,
    Bool.false_eq_true, if_false, List.nil_append]

private theorem freeze_longFrame {context : CaptureContext} (placed : slot.offset.toNat + 8 < UInt32.size)
    (least : context.minArgBytes = 0) (limit : context.limit = 0) :
    ∃ copy, Capture.freeze context [] (longFrame slot) = .ok (copy, []) ∧ copy.frame.layout.interiors = [slot] := by
  obtain ⟨size, extent⟩ := LiveFrame.extent_of_measured (least ▸ measured_longFrame slot)
  obtain ⟨need, required⟩ := LiveFrame.requirement_of_extent extent
  obtain ⟨image, imaged⟩ : ∃ image, image = Buffer.copyOf (context.place 0) context.memory 0x1000 size.toNat := ⟨_, rfl⟩
  have fits : slot.offset.toNat + 8 ≤ image.size := by
    have sum := (LiveFrame.extent_spec extent).2
    rw [LiveFrame.toNat_copiedArgs, least] at sum
    rw [imaged, Buffer.size_copyOf]
    change 0x1000 + size.toNat = 0x100000FFF + max 0 0 at sum
    change slot.offset.toNat + 8 < 0x100000000 at placed
    omega
  obtain ⟨offset, returned⟩ : ∃ offset, (longFrame slot).offsetOf (longFrame slot).returnSlot = .ok offset := by
    simp only [LiveFrame.offsetOf, longFrame]
    exact ⟨_, if_pos (by decide)⟩
  have saved : (longFrame slot).saveRegisters Register.all image = .ok ([], image) := rfl
  have recorded : ((longFrame slot).references ++ SavedRegister.frameReferences []).foldlM
      (References.record context [] (longFrame slot) []) { buffer := image } =
        .ok { buffer := image, interiors := [slot] } := by
    change (References.record context [] (longFrame slot) [] { buffer := image } _ >>= fun known => .ok known) = _
    rw [record_longFrame limit fits]
    rfl
  unfold Capture.freeze
  simp only [extent, required, returned, bind, Except.bind, List.length_nil]
  have copied : Buffer.copyOf (context.place 0) context.memory (longFrame slot).sp size.toNat = image := imaged.symm
  rw [copied, saved]
  simp only [recorded]
  exact ⟨_, rfl, rfl⟩

private theorem walk_longFrame {context : CaptureContext} {copy : Copied}
    (frozen : Capture.freeze context [] (longFrame slot) = .ok (copy, [])) :
    Capture.walk context {} [longFrame slot] = .ok (1, ⟨#[copy], []⟩) := by
  have added : ({} : Capture).add context (longFrame slot) = .ok ⟨#[copy], []⟩ := by
    unfold Capture.add
    rw [show ({} : Capture).shifts = [] from rfl, frozen]
    rfl
  have first : (!({} : Capture).hasStarted && !((longFrame slot).kind = .suspendable && (longFrame slot).holdsMark)) =
      false := rfl
  rw [Capture.walk, first, added]
  rfl

private theorem install_alone (frame : FrozenFrame) :
    ∃ store, StoreM.install [frame] {} = .ok (some ⟨⟨0, 0⟩, ⟨0, 0⟩, 1⟩) store ∧ store.frame ⟨0, 0⟩ = .ok frame :=
  ⟨_, rfl, rfl⟩

private theorem capture_of_run {freezer after : Freezer} {memory : Memory} {place : Nat → Word}
    {frames : List LiveFrame}
    {limit : Word} {visited : Nat} {capture : Capture} {chain : Chain}
    (walked : Capture.walk ⟨memory, place, freezer.settings.minArgBytes, limit⟩ {} frames = .ok (visited, capture))
    (ran : freezer.run (StoreM.install capture.frames) = .ok (some chain, after)) :
    freezer.capture memory place frames limit =
      .ok ((visited, some chain), { after with captured := after.captured + UInt64.ofNat chain.size }) := by
  unfold Freezer.capture
  simp only [walked, Failure.ofStop, ran, bind, Except.bind, pure, Except.pure]

end Freezer

namespace InteriorSlot

variable {slot : InteriorSlot}

/-- Some program comes to a frozen frame that records the slot. -/
def Recordable (slot : InteriorSlot) : Prop :=
  ∃ freezer handle frame, Freezer.Reachable freezer ∧ freezer.frame handle = .ok frame ∧
    slot ∈ frame.layout.interiors

private theorem recordable_of_lt (placed : slot.offset.toNat + 8 < UInt32.size) : Recordable slot := by
  obtain ⟨copy, frozen, interiors⟩ := @Freezer.freeze_longFrame slot ⟨.blank, fun _ => 0x8000, 0, 0⟩ placed rfl rfl
  obtain ⟨store, installed, held⟩ := Freezer.install_alone copy.frame
  have ran : Freezer.run {} (StoreM.install [copy.frame]) = .ok (some ⟨⟨0, 0⟩, ⟨0, 0⟩, 1⟩, { store }) :=
    Freezer.run_eq_ok.mpr ⟨store, installed, rfl⟩
  have captured : Freezer.capture {} .blank (fun _ => 0x8000) [Freezer.longFrame slot] 0 = _ :=
    Freezer.capture_of_run (Freezer.walk_longFrame frozen) ran
  refine ⟨{ store, captured := 0 + UInt64.ofNat 1 }, ⟨0, 0⟩, copy.frame, ?_, held, ?_⟩
  · apply Freezer.Reachable.step (.capture .blank (fun _ => 0x8000) [Freezer.longFrame slot] 0) (.fresh {})
    rw [Freezer.perform, captured]
    rfl
  · rw [interiors]
    exact List.mem_singleton_self slot

/-- Captures record exactly the slots whose word ends within the longest extent. -/
theorem recordable_iff : Recordable slot ↔ slot.offset.toNat + 8 < UInt32.size := by
  constructor
  · rintro ⟨freezer, handle, frame, reachable, held, within⟩
    have trimmed := reachable.trimmed handle frame (StoreM.frame_eq_ok.mp held)
    have inside := trimmed.interiors slot within
    rw [← trimmed.recorded] at inside
    exact Nat.lt_of_le_of_lt inside frame.layout.recorded.toNat_lt
  · exact recordable_of_lt

/-- A slot comes back from its number exactly if its offset is in the lower half of the range. In the upper half, and
captures record nearly all of it, the other slot of the number comes back. A number always comes back. -/
theorem codes_of_recordable (slot : InteriorSlot) :
    (Recordable slot ↔ slot.offset.toNat + 8 < UInt32.size) ∧
    (ofEncoded slot.encoded = slot ↔ slot.offset < 0x80000000) ∧
    (ofEncoded slot.encoded = slot ∨ ofEncoded slot.encoded = slot.mirror) ∧
    (∀ other : InteriorSlot, slot.encoded = other.encoded ↔ slot = other ∨ slot = other.mirror) ∧
    ∀ code, (ofEncoded code).encoded = code := by
  refine ⟨recordable_iff, ofEncoded_encoded_eq_iff, ?_, fun _ => encoded_eq_iff, encoded_ofEncoded⟩
  exact encoded_eq_iff.mp (encoded_ofEncoded slot.encoded)

/-- A slot that is not pinned is recorded in the middle of the range, and its number is that of a pinned one. -/
theorem code_of_middle : Recordable ⟨0x80000000, false⟩ ∧
    ofEncoded (encoded ⟨0x80000000, false⟩) = ⟨0x7FFFFFFF, true⟩ :=
  ⟨recordable_of_lt (by decide), by decide⟩

end InteriorSlot
end CallStacks.Frozen
