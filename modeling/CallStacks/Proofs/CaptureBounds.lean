import CallStacks.Proofs.CaptureRelocation
import CallStacks.Proofs.Survival

/-! Which of the places that a capture records lie in the copy. Save slots and interior pointers are written
or read while the frame is copied, so a place outside the copy stops the capture. Object references and the
slot of the return address are only noted down: they lie in the copy if the walk told the truth. -/

namespace CallStacks.Frozen

variable {context : CaptureContext} {live : LiveFrame} {frame old new : FrozenFrame}

/-- The word at an address lies in the frame or in its arguments. -/
def LiveFrame.Spans (live : LiveFrame) (addr : Word) : Prop :=
  live.sp.toNat ≤ addr.toNat ∧ addr.toNat + 8 ≤ live.callerSp.toNat + live.argBytes.toNat

/-- The walk tells the truth about a frame: its object references are in the frame or in registers, and its
return address is in the frame. -/
structure LiveFrame.Truthful (live : LiveFrame) : Prop where
  returnSlot : live.Spans live.returnSlot
  objects : ∀ reference ∈ live.references, reference.interior = false → live.Spans reference.location ∨
    ∃ register slots, live.registers register = some slots ∧ slots.currentLocation = reference.location

namespace FrozenFrame

/-- The frame takes the space of its copy when it runs again, its save slots and interior pointers lie in the
copy, and its reload list has an end. -/
structure Trimmed (frame : FrozenFrame) : Prop where
  whole : frame.layout.unrecorded = 0
  recorded : frame.layout.recorded.toNat = frame.buffer.size
  requirement : frame.layout.requirement.toNat = frame.buffer.size
  interiors : ∀ slot ∈ frame.layout.interiors, slot.offset.toNat + 8 ≤ frame.buffer.size
  reloads : ∀ reload ∈ frame.layout.reloads, ∀ register, reload.tag = .saved register →
    reload.offset.toNat + register.width ≤ frame.buffer.size
  closed : frame.layout.reloads.getLast?.any (·.tag.endsList) = true

/-- Every place that the layout names lies in the copy. -/
structure Contained (frame : FrozenFrame) : Prop extends Trimmed frame where
  objects : ∀ offset ∈ frame.layout.objects, offset.toNat + 8 ≤ frame.buffer.size
  returnOffset : frame.layout.returnOffset.toNat + 8 ≤ frame.buffer.size

theorem Trimmed.of_settled (trimmed : old.Trimmed) (layout : new.layout = old.layout)
    (size : new.buffer.size = old.buffer.size) : new.Trimmed := by
  obtain ⟨whole, recorded, requirement, interiors, reloads, closed⟩ := trimmed
  constructor <;> rw [layout] <;> first | assumption | (rw [size]; assumption)

theorem Contained.of_settled (contained : old.Contained) (layout : new.layout = old.layout)
    (size : new.buffer.size = old.buffer.size) : new.Contained := by
  refine ⟨contained.toTrimmed.of_settled layout size, ?_, ?_⟩
  · rw [layout, size]
    exact contained.objects
  · rw [layout, size]
    exact contained.returnOffset

end FrozenFrame

theorem LiveFrame.requirement_spec {size need : UInt32} (extent : live.extent context = .ok size)
    (required : live.requirement context = .ok need) : need.toNat = size.toNat := by
  obtain ⟨ordered, sum⟩ := extent_spec extent
  have above := UInt64.le_iff_toNat_le.mp ordered
  have small := size.toNat_lt
  have body : (live.callerSp - live.sp).toUInt32.toNat = live.callerSp.toNat - live.sp.toNat := by
    rw [UInt64.toNat_toUInt32, UInt64.toNat_sub_of_le _ _ ordered]
    omega
  unfold LiveFrame.requirement at required
  dsimp only at required
  split at required
  next fits =>
    cases required
    rw [UInt32.toNat_add, Nat.mod_eq_of_lt fits, body]
    omega
  next => cases required

namespace LiveFrame

variable {registers : List Register} {saved : List SavedRegister} {register : Register} {slots : RegisterSlots}
  {buffer image : Buffer}

def saved? (live : LiveFrame) (register : Register) : Option RegisterSlots :=
  (live.registers register).filter (·.isSaved)

def distance (live : LiveFrame) (addr : Word) : UInt32 := (addr - live.sp).toUInt32

theorem saved?_eq_some : live.saved? register = some slots ↔
    live.registers register = some slots ∧ slots.isSaved = true := Option.filter_eq_some_iff

theorem distance_of_offsetOf {addr : Word} {offset : UInt32} (found : live.offsetOf addr = .ok offset) :
    offset = live.distance addr := by
  unfold offsetOf at found
  split at found
  · cases found
    rfl
  · cases found

def noted? (live : LiveFrame) (register : Register) : Option SavedRegister :=
  (live.registers register).map fun slots =>
    ⟨register, slots, if slots.isSaved then some (live.distance slots.callerLocation) else none⟩

theorem saved_of_entry {offset : UInt32} (noted : ⟨register, slots, some offset⟩ ∈ registers.filterMap live.noted?) :
    register ∈ registers ∧ live.saved? register = some slots ∧ offset = live.distance slots.callerLocation := by
  obtain ⟨other, member, noted⟩ := List.mem_filterMap.mp noted
  obtain ⟨slots', has, same⟩ := Option.map_eq_some_iff.mp noted
  simp only [SavedRegister.mk.injEq] at same
  obtain ⟨rfl, rfl, place⟩ := same
  split at place
  next isSaved => exact ⟨member, saved?_eq_some.mpr ⟨has, isSaved⟩, (Option.some.inj place).symm⟩
  next => cases place

theorem entry_of_saved (held : live.saved? register = some slots) :
    ⟨register, slots, some (live.distance slots.callerLocation)⟩ ∈ Register.all.filterMap live.noted? := by
  obtain ⟨has, isSaved⟩ := saved?_eq_some.mp held
  exact List.mem_filterMap.mpr ⟨register, register.mem_all, by simp [noted?, has, isSaved]⟩

theorem saveRegisters_entries (done : live.saveRegisters registers buffer = .ok (saved, image)) :
    saved = registers.filterMap live.noted? ∧ ∀ register ∈ registers, ∀ slots, live.saved? register = some slots →
      live.offsetOf slots.callerLocation = .ok (live.distance slots.callerLocation) ∧
        (live.distance slots.callerLocation).toNat + register.width ≤ buffer.size := by
  induction registers generalizing buffer saved with
  | nil =>
    cases done
    exact ⟨rfl, by simp⟩
  | cons register rest ih =>
    cases savesFirst_of_cons done with
    | absent asked more =>
      obtain ⟨entries, places⟩ := ih more
      refine ⟨by simp [noted?, asked, entries], List.forall_mem_cons.mpr ⟨fun slots held => ?_, places⟩⟩
      cases asked.symm.trans (saved?_eq_some.mp held).1
    | noted asked unsaved same more =>
      obtain ⟨entries, places⟩ := ih more
      refine ⟨by simp [noted?, asked, unsaved, same, entries],
        List.forall_mem_cons.mpr ⟨fun slots held => ?_, places⟩⟩
      obtain ⟨has, isSaved⟩ := saved?_eq_some.mp held
      obtain rfl := Option.some.inj (asked.symm.trans has)
      rw [unsaved] at isSaved
      cases isSaved
    | laid asked isSaved placed fits same more =>
      obtain ⟨entries, places⟩ := ih more
      rw [Buffer.size_overlay] at places
      obtain rfl := distance_of_offsetOf placed
      refine ⟨by simp [noted?, asked, isSaved, same, entries],
        List.forall_mem_cons.mpr ⟨fun slots held => ?_, places⟩⟩
      obtain rfl := Option.some.inj (asked.symm.trans (saved?_eq_some.mp held).1)
      exact ⟨placed, fits⟩

private theorem saveRegisters_places (done : live.saveRegisters registers buffer = .ok (saved, image)) :
    (∀ entry ∈ saved, ∀ offset, entry.offset = some offset → offset.toNat + entry.register.width ≤ buffer.size) ∧
      ∀ register ∈ registers, ∀ slots, live.registers register = some slots →
        ∃ offset, ⟨register, slots, offset⟩ ∈ saved := by
  obtain ⟨rfl, places⟩ := saveRegisters_entries done
  refine ⟨fun entry within offset place => ?_, fun register within slots has => ?_⟩
  · obtain ⟨register, slots, found⟩ := entry
    obtain rfl : found = some offset := place
    obtain ⟨member, held, rfl⟩ := saved_of_entry within
    exact (places _ member _ held).2
  · exact ⟨_, List.mem_filterMap.mpr ⟨register, within, by rw [noted?, has]; rfl⟩⟩

end LiveFrame

namespace References

/-- What a record of references says about places: the interior slots lie in the copy, and every object slot
stems from an object reference of the frame. -/
structure Placed (registers : List SavedRegister) (live : LiveFrame) (size : Nat) (known : References) : Prop where
  extent : known.buffer.size = size
  interiors : ∀ slot ∈ known.interiors, slot.offset.toNat + 8 ≤ size
  objects : ∀ offset ∈ known.objects, ∃ reference ∈ live.references, reference.interior = false ∧
    SavedRegister.offsetOf registers live reference.location = .ok offset

private theorem placed_of_record {earlier : List Shift} {registers : List SavedRegister} {size : Nat}
    {known next : References} {reference : Reference} (placed : Placed registers live size known)
    (told : reference.interior = false → reference ∈ live.references)
    (done : record context earlier live registers known reference = .ok next) : Placed registers live size next := by
  cases recorded_of_record done with
  | object plain found =>
    refine ⟨placed.extent, placed.interiors, fun other within => ?_⟩
    rcases List.mem_append.mp within with old | new
    · exact placed.objects other old
    · obtain rfl := List.mem_singleton.mp new
      exact ⟨reference, told plain, plain, found⟩
  | pointer _ _ _ size _ was =>
    refine ⟨size.trans placed.extent, fun other within => ?_, placed.objects⟩
    rcases List.mem_append.mp within with old | new
    · exact placed.interiors other old
    · obtain rfl := List.mem_singleton.mp new
      exact placed.extent ▸ ((Buffer.read_eq_ok_iff _ _ _).mp was).1

private theorem placed_of_foldlM {earlier : List Shift} {registers : List SavedRegister} {image : Buffer}
    {final : References}
    (done : (live.references ++ SavedRegister.frameReferences registers).foldlM
      (record context earlier live registers) { buffer := image } = .ok final) :
    Placed registers live image.size final := by
  apply CallStacks.Failure.foldlM_invariant (Placed registers live image.size) done ⟨rfl, by simp, by simp⟩
  intro reference within known next placed recorded
  refine placed_of_record placed (fun object => ?_) recorded
  rcases List.mem_append.mp within with told | implied
  · exact told
  · obtain ⟨saved, _, rfl⟩ := List.mem_map.mp implied
    cases object

end References

namespace Capture

variable {earlier later : List Shift} {places : List Nat} {copy : Copied} {registers : List SavedRegister}
  {image : Buffer} {known : References}

theorem Copying.trimmed (copying : Copying context earlier live copy registers image known) :
    copy.frame.Trimmed ∧ copy.frame.buffer.size = image.size := by
  obtain ⟨_, imageSize, _⟩ := LiveFrame.copiedByte_of_saveRegisters copying.saved
  have placed := References.placed_of_foldlM copying.recorded
  have size : copy.frame.buffer.size = image.size := by
    rw [copying.built]
    exact placed.extent
  refine ⟨⟨?_, ?_, ?_, ?_, ?_, ?_⟩, size⟩
  · rw [copying.built]
  · rw [size, imageSize]
  · rw [size, imageSize]
    exact LiveFrame.requirement_spec copying.extent copying.requirement
  · rw [size, copying.built]
    exact placed.interiors
  · intro reload within register tag
    rw [copying.built] at within
    simp only [SavedRegister.reloads, List.mem_append, List.mem_filterMap, Option.map_eq_some_iff,
      List.mem_singleton] at within
    rcases within with ⟨entry, member, offset, at_, rfl⟩ | rfl
    · cases tag
      have fits := (LiveFrame.saveRegisters_places copying.saved).1 entry member offset at_
      rwa [Buffer.size_copyOf, ← imageSize, ← size] at fits
    · split at tag <;> cases tag
  · rw [copying.built]
    simp only [SavedRegister.reloads, List.getLast?_concat, Option.any_some]
    split <;> rfl

private theorem fits_of_spans {addr : Word} {offset size : UInt32} (extent : live.extent context = .ok size)
    (found : live.offsetOf addr = .ok offset) (spans : live.Spans addr) : offset.toNat + 8 ≤ size.toNat := by
  obtain ⟨_, sum⟩ := LiveFrame.extent_spec extent
  have args : live.argBytes.toNat ≤ (live.copiedArgs context).toNat := by
    change live.argBytes.toNat ≤ (if live.argBytes ≤ context.minArgBytes then _ else _ : UInt32).toNat
    split
    next less => exact UInt32.le_iff_toNat_le.mp less
    next => exact Nat.le_refl _
  obtain ⟨above, below⟩ := spans
  rw [LiveFrame.toNat_of_offsetOf found, UInt64.toNat_sub_of_le _ _ (UInt64.le_iff_toNat_le.mpr above)]
  omega

theorem Copying.contained (copying : Copying context earlier live copy registers image known)
    (truthful : live.Truthful) : copy.frame.Contained := by
  obtain ⟨trimmed, size⟩ := copying.trimmed
  have recorded := trimmed.recorded
  refine ⟨trimmed, fun offset within => ?_, ?_⟩
  · rw [copying.built] at within
    obtain ⟨reference, told, object, found⟩ := (References.placed_of_foldlM copying.recorded).objects offset within
    obtain ⟨places, listed⟩ := LiveFrame.saveRegisters_places copying.saved
    unfold SavedRegister.offsetOf at found
    split at found
    next register slots place known =>
      cases found
      have fits : offset.toNat + register.width ≤ _ := places _ (List.mem_of_find?_eq_some known) _ rfl
      have wide := register.le_width
      rw [Buffer.size_copyOf] at fits
      omega
    next => cases found
    next absent =>
      rcases truthful.objects reference told object with spans | ⟨register, slots, has, located⟩
      · exact recorded ▸ fits_of_spans copying.extent found spans
      · obtain ⟨place, inside⟩ := listed register register.mem_all slots has
        have missed := List.find?_eq_none.mp absent _ inside
        simp [located] at missed
  · exact recorded ▸ fits_of_spans copying.extent copying.returnOffset truthful.returnSlot

theorem Traced.trimmed (traced : Traced context earlier later places live copy) : copy.frame.Trimmed := by
  obtain ⟨first, registers, image, known, copying, outline, _, size, _⟩ := traced
  obtain ⟨trimmed, same⟩ := copying.trimmed
  exact trimmed.of_settled (Copied.layout_of_outline outline) (size.trans same.symm)

theorem Traced.contained (traced : Traced context earlier later places live copy) (truthful : live.Truthful) :
    copy.frame.Contained := by
  obtain ⟨first, registers, image, known, copying, outline, _, size, _⟩ := traced
  exact (copying.contained truthful).of_settled (Copied.layout_of_outline outline)
    (size.trans copying.trimmed.2.symm)

/-- Captured frames are trimmed, and contained if the walk told the truth. -/
theorem trimmed_of_walk {frames : List LiveFrame} {count : Nat} {final : Capture}
    (done : walk context {} frames = .ok (count, final)) : ∀ frame ∈ final.frames, frame.Trimmed ∧
      ((∀ live ∈ suspended frames, live.Truthful) → frame.Contained) := by
  intro frame within
  rw [← (copies_eq done).2] at within
  obtain ⟨this, member, rfl⟩ := List.mem_map.mp within
  obtain ⟨index, held⟩ := List.getElem?_of_mem member
  obtain ⟨copy, visited, copied, same⟩ := copied_of_transits held
  have traced := traced_of_walk done visited copied
  rw [same]
  exact ⟨traced.trimmed, fun told => traced.contained (told _ (List.mem_of_getElem? visited))⟩

end Capture
end CallStacks.Frozen
