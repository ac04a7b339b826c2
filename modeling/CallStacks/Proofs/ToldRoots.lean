import CallStacks.Proofs.CaptureBounds

/-! What a stack walk tells of a frame, and what is recorded of it. A reference that the walk finds in a register is
recorded where the frame has saved that register. So the roots of a copy are the references that were told, one for
one and in their order, and a saved frame pointer after them. -/

namespace CallStacks.Frozen

variable {context : CaptureContext} {live : LiveFrame} {registers : List Register} {saved : List SavedRegister}
  {register : Register} {slots : RegisterSlots} {location : Word} {offset : UInt32} {buffer image : Buffer}

namespace LiveFrame

def Copies (live : LiveFrame) (context : CaptureContext) (addr : Word) : Prop :=
  live.sp.toNat ≤ addr.toNat ∧ addr.toNat + 8 ≤ live.callerSp.toNat + (live.copiedArgs context).toNat

def kept? (live : LiveFrame) (location : Word) : Option (Register × RegisterSlots) :=
  Register.all.findSome? fun register =>
    ((live.saved? register).filter (·.currentLocation = location)).map (register, ·)

/-- Where the frame keeps the word at a location: that of a saved register belongs where the register was saved. -/
def homeOf (live : LiveFrame) (location : Word) : Word :=
  match live.kept? location with
  | some (_, slots) => slots.callerLocation
  | none => location

def placeOf (live : LiveFrame) (location : Word) : UInt32 := live.distance (live.homeOf location)

/-- The word at a location: that of a saved register is its current value. -/
def wordAt (live : LiveFrame) (memory : Memory) (location : Word) : Word :=
  match live.kept? location with
  | some (_, slots) => UInt64.ofNat slots.value.toNat
  | none => memory.word location

/-- What a collection is to be shown of the frame: its object references, its interior pointers, and the frame
pointer if the frame has saved it. -/
def roots (live : LiveFrame) : List Root :=
  (live.references.filter (!·.interior)).map (fun reference => ⟨live.placeOf reference.location, .precise⟩) ++
    ((live.references.filter (·.interior)).map
        (fun reference => ⟨live.placeOf reference.location, .interior reference.pinned⟩) ++
      (live.saved? .rbp).toList.map fun slots => ⟨live.distance slots.callerLocation, .interior false⟩)

def implied (live : LiveFrame) : List Reference :=
  (live.saved? .rbp).toList.map fun slots => ⟨slots.callerLocation, true, false⟩

/-- Each reference is in the frame, or in a register that the frame has saved. Registers are kept at different
places, outside the frame. -/
structure Located (live : LiveFrame) (context : CaptureContext) : Prop where
  told : ∀ reference ∈ live.references, live.Copies context reference.location ∨
    ∃ register slots, live.saved? register = some slots ∧ slots.currentLocation = reference.location
  distinct : ∀ register other slots slots', live.registers register = some slots →
    live.registers other = some slots' → slots.currentLocation = slots'.currentLocation → register = other
  outside : ∀ register slots, live.registers register = some slots → ¬ live.Copies context slots.currentLocation

private theorem saved_of_kept (kept : live.kept? location = some (register, slots)) :
    live.saved? register = some slots ∧ slots.currentLocation = location := by
  obtain ⟨other, _, found⟩ := List.exists_of_findSome?_eq_some kept
  obtain ⟨_, held, same⟩ := Option.map_eq_some_iff.mp found
  cases same
  obtain ⟨held, here⟩ := Option.filter_eq_some_iff.mp held
  exact ⟨held, of_decide_eq_true here⟩

private theorem saved?_filter_eq_none (elsewhere : ∀ entry, live.noted? register = some entry →
      entry.slots.currentLocation ≠ location) :
    (live.saved? register).filter (·.currentLocation = location) = none := by
  refine Option.filter_eq_none_iff.mpr fun slots held => ?_
  simpa using elsewhere _ (Option.map_eq_some_iff.mpr ⟨slots, (saved?_eq_some.mp held).1, rfl⟩)

private theorem kept_of_saved (held : live.saved? register = some slots) (here : slots.currentLocation = location) :
    ∃ other slots', live.kept? location = some (other, slots') := by
  have shown : (live.kept? location).isSome := by
    rw [kept?, List.findSome?_isSome_iff]
    exact ⟨register, register.mem_all, by simp [held, here]⟩
  obtain ⟨⟨other, slots'⟩, kept⟩ := Option.isSome_iff_exists.mp shown
  exact ⟨other, slots', kept⟩

theorem Located.kept_iff (located : live.Located context) : live.kept? location = some (register, slots) ↔
    live.saved? register = some slots ∧ slots.currentLocation = location := by
  refine ⟨saved_of_kept, fun ⟨held, here⟩ => ?_⟩
  obtain ⟨other, slots', kept⟩ := kept_of_saved held here
  obtain ⟨held', here'⟩ := saved_of_kept kept
  obtain rfl := located.distinct _ _ _ _ (saved?_eq_some.mp held).1 (saved?_eq_some.mp held').1 (here.trans here'.symm)
  rw [kept, ← Option.some.inj (held.symm.trans held')]

theorem Located.not_kept (located : live.Located context) (inside : live.Copies context location) :
    live.kept? location = none := by
  cases kept : live.kept? location with
  | none => rfl
  | some entry =>
    obtain ⟨held, here⟩ := saved_of_kept kept
    exact absurd (here ▸ inside) (located.outside _ _ (saved?_eq_some.mp held).1)

theorem Located.homeOf_inside (located : live.Located context) (inside : live.Copies context location) :
    live.homeOf location = location := by
  rw [homeOf, located.not_kept inside]

theorem Located.homeOf_saved (located : live.Located context) (held : live.saved? register = some slots) :
    live.homeOf slots.currentLocation = slots.callerLocation := by
  rw [homeOf, located.kept_iff.mpr ⟨held, rfl⟩]

end LiveFrame

namespace SavedRegister

theorem placeOf_of_offsetOf (found : offsetOf (Register.all.filterMap live.noted?) live location = .ok offset) :
    offset = live.placeOf location := by
  unfold offsetOf at found
  split at found
  next register slots place first =>
    cases found
    obtain ⟨_, held, rfl⟩ := LiveFrame.saved_of_entry (List.mem_of_find?_eq_some first)
    obtain ⟨here, before, after, split, missed⟩ := List.find?_eq_some_iff_append.mp first
    obtain ⟨passed, rest, all, rfl, more⟩ := List.filterMap_eq_append_iff.mp split
    obtain ⟨silent, last, rest, rfl, skipped, noted, _⟩ := List.filterMap_eq_cons_iff.mp more
    obtain ⟨_, _, same⟩ := Option.map_eq_some_iff.mp noted
    obtain rfl : last = register := congrArg SavedRegister.register same
    -- no register before this one is kept there, so it is the one that counts
    have kept : live.kept? location = some (last, slots) := by
      refine List.findSome?_eq_some_iff.mpr ⟨passed ++ silent, last, rest, by rw [all, List.append_assoc], ?_, ?_⟩
      · rw [held, Option.filter_some, if_pos here]
        rfl
      · intro other within
        rw [LiveFrame.saved?_filter_eq_none fun entry asked => ?_, Option.map_none]
        rcases List.mem_append.mp within with early | late
        · simpa using missed entry (List.mem_filterMap.mpr ⟨other, early, asked⟩)
        · rw [skipped other late] at asked
          cases asked
    rw [LiveFrame.placeOf, LiveFrame.homeOf, kept]
  next => cases found
  next absent =>
    have none_kept : live.kept? location = none := by
      cases kept : live.kept? location with
      | none => rfl
      | some found =>
        obtain ⟨held, here⟩ := LiveFrame.saved_of_kept kept
        have missed := List.find?_eq_none.mp absent _ (LiveFrame.entry_of_saved held)
        exact absurd (decide_eq_true here) missed
    rw [LiveFrame.placeOf, LiveFrame.homeOf, none_kept]
    exact LiveFrame.distance_of_offsetOf found

theorem frameReferences_entries : frameReferences (Register.all.filterMap live.noted?) = live.implied := by
  have apart : ∀ register ≠ .rbp, (live.noted? register).filter isFramePointer = none := by
    intro register different
    cases asked : live.registers register <;> simp [LiveFrame.noted?, asked, isFramePointer, different]
  have here : (live.noted? .rbp).filter isFramePointer =
      (live.saved? .rbp).map fun slots => ⟨.rbp, slots, some (live.distance slots.callerLocation)⟩ := by
    cases asked : live.registers .rbp with
    | none => simp [LiveFrame.noted?, LiveFrame.saved?, asked]
    | some slots =>
      cases kept : slots.isSaved <;>
        simp [LiveFrame.noted?, LiveFrame.saved?, asked, kept, isFramePointer, Option.filter_some]
  have others : (Register.all.drop 2).filterMap (fun register => (live.noted? register).filter isFramePointer) = [] :=
    List.filterMap_eq_nil_iff.mpr fun register within => apart register fun same => absurd (same ▸ within) (by decide)
  have split : Register.all = .rbx :: .rbp :: Register.all.drop 2 := rfl
  rw [frameReferences, List.filter_filterMap, split, List.filterMap_cons, apart .rbx (by decide), List.filterMap_cons,
    here, others, LiveFrame.implied]
  cases live.saved? .rbp <;> rfl

end SavedRegister

namespace Capture

variable {earlier later : List Shift} {places : List Nat} {copy : Copied} {noted : List SavedRegister}
  {known : References}

theorem Copying.place_of_saved (copying : Copying context earlier live copy noted image known)
    (held : live.saved? register = some slots) :
    (live.distance slots.callerLocation).toNat = (slots.callerLocation - live.sp).toNat ∧
      live.sp ≤ slots.callerLocation ∧
      (live.distance slots.callerLocation).toNat + register.width ≤ copy.frame.layout.recorded.toNat := by
  obtain ⟨found, fits⟩ := (LiveFrame.saveRegisters_entries copying.saved).2 register register.mem_all slots held
  have above : live.sp ≤ slots.callerLocation := by
    unfold LiveFrame.offsetOf at found
    split at found
    next bounds => exact bounds.1
    next => cases found
  refine ⟨LiveFrame.toNat_of_offsetOf found, above, ?_⟩
  rwa [Buffer.size_copyOf] at fits

theorem Copying.copies_of_saved (copying : Copying context earlier live copy noted image known)
    (held : live.saved? register = some slots) : live.Copies context slots.callerLocation := by
  obtain ⟨place, above, fits⟩ := copying.place_of_saved held
  rw [UInt64.toNat_sub_of_le _ _ above] at place
  have above := UInt64.le_iff_toNat_le.mp above
  have sum := (LiveFrame.extent_spec copying.extent).2
  have wide := register.le_width
  exact ⟨above, by omega⟩

/-- What is recorded of a frame is what was told of it. -/
theorem Copying.roots_eq (copying : Copying context earlier live copy noted image known)
    (located : live.Located context) : copy.frame.layout.roots = live.roots := by
  obtain ⟨rfl, _⟩ := LiveFrame.saveRegisters_entries copying.saved
  have recorded := copying.recorded
  rw [SavedRegister.frameReferences_entries] at recorded
  obtain ⟨objects, interiors, allObjects, allInteriors, objectsTold, interiorsTold⟩ :=
    References.entries_of_foldlM recorded
  have objectsOnly : live.implied.filter (!·.interior) = [] := by simp [LiveFrame.implied]
  have interiorsOnly : live.implied.filter (·.interior) = live.implied := by simp [LiveFrame.implied]
  have inPlace : live.implied.map
      (fun reference => (⟨live.placeOf reference.location, .interior reference.pinned⟩ : Root)) =
        (live.saved? .rbp).toList.map fun slots => ⟨live.distance slots.callerLocation, .interior false⟩ := by
    rw [LiveFrame.implied, List.map_map]
    refine List.map_congr_left fun slots held => ?_
    have inside := copying.copies_of_saved (Option.mem_toList.mp held)
    rw [Function.comp_apply, LiveFrame.placeOf, located.homeOf_inside inside]
  rw [List.filter_append, objectsOnly, List.append_nil] at objectsTold
  rw [List.filter_append, interiorsOnly] at interiorsTold
  have precise : (live.references.filter (!·.interior)).map
      (fun reference => (⟨live.placeOf reference.location, .precise⟩ : Root)) = objects.map (⟨·, .precise⟩) := by
    rw [← List.forall₂_eq_eq_eq, List.forall₂_map_left_iff, List.forall₂_map_right_iff]
    exact objectsTold.imp fun reference offset found => by rw [SavedRegister.placeOf_of_offsetOf found]
  have interior : (live.references.filter (·.interior) ++ live.implied).map
      (fun reference => (⟨live.placeOf reference.location, .interior reference.pinned⟩ : Root)) =
        interiors.map fun slot => ⟨slot.offset, .interior slot.pinned⟩ := by
    rw [← List.forall₂_eq_eq_eq, List.forall₂_map_left_iff, List.forall₂_map_right_iff]
    exact interiorsTold.imp fun reference slot placed => by
      rw [SavedRegister.placeOf_of_offsetOf placed.1, placed.2]
  rw [List.map_append, inPlace] at interior
  rw [copying.built, Layout.roots, LiveFrame.roots, precise, interior, allObjects, allInteriors]
  rfl

theorem Copying.place_of_copies (copying : Copying context earlier live copy noted image known)
    (inside : live.Copies context location) : (live.distance location).toNat = (location - live.sp).toNat ∧
      (live.distance location).toNat + 8 ≤ copy.frame.layout.recorded.toNat := by
  have sum := (LiveFrame.extent_spec copying.extent).2
  have small := copy.frame.layout.recorded.toNat_lt
  obtain ⟨above, below⟩ := inside
  have length : (live.distance location).toNat = location.toNat - live.sp.toNat := by
    rw [LiveFrame.distance, UInt64.toNat_toUInt32, UInt64.toNat_sub_of_le _ _ (UInt64.le_iff_toNat_le.mpr above)]
    omega
  rw [length, UInt64.toNat_sub_of_le _ _ (UInt64.le_iff_toNat_le.mpr above)]
  omega

theorem Copying.copies_homeOf (copying : Copying context earlier live copy noted image known)
    (located : live.Located context) {reference : Reference} (told : reference ∈ live.references ++ live.implied) :
    live.Copies context (live.homeOf reference.location) := by
  rcases List.mem_append.mp told with told | implied
  · rcases located.told reference told with inside | ⟨register, slots, held, here⟩
    · rwa [located.homeOf_inside inside]
    · rw [← here, located.homeOf_saved held]
      exact copying.copies_of_saved held
  · obtain ⟨slots, held, rfl⟩ := List.mem_map.mp implied
    have inside := copying.copies_of_saved (Option.mem_toList.mp held)
    rwa [located.homeOf_inside inside]

theorem Copying.place_of_told (copying : Copying context earlier live copy noted image known)
    (located : live.Located context) {reference : Reference} (told : reference ∈ live.references ++ live.implied) :
    (live.placeOf reference.location).toNat = (live.homeOf reference.location - live.sp).toNat :=
  (copying.place_of_copies (copying.copies_homeOf located told)).1

theorem Copying.roots_fit (copying : Copying context earlier live copy noted image known)
    (located : live.Located context) :
    ∀ root ∈ live.roots, root.offset.toNat + 8 ≤ copy.frame.layout.recorded.toNat := by
  intro root within
  simp only [LiveFrame.roots, List.mem_append, List.mem_map, List.mem_filter] at within
  rcases within with ⟨reference, ⟨told, _⟩, rfl⟩ | ⟨reference, ⟨told, _⟩, rfl⟩ | ⟨slots, held, rfl⟩
  · exact (copying.place_of_copies (copying.copies_homeOf located (List.mem_append_left _ told))).2
  · exact (copying.place_of_copies (copying.copies_homeOf located (List.mem_append_left _ told))).2
  · exact (copying.place_of_saved (Option.mem_toList.mp held)).2.2

end Capture
end CallStacks.Frozen
