import CallStacks.Proofs.ToldRoots

/-! The words at the places that were told of. A copy has the stack's own words, but where the frame has saved a
register: there it has the register's current value. So a reference that the walk found is in the copy as it was, if
its place is not written for another reason. -/

namespace CallStacks.Frozen

variable {context : CaptureContext} {live : LiveFrame} {memory : Memory} {register : Register} {slots : RegisterSlots}
  {location : Word} {index : Nat}

def Buffer.Parted (offset width other wide : Nat) : Prop := offset + width ≤ other ∨ other + wide ≤ offset

instance (offset width other wide : Nat) : Decidable (Buffer.Parted offset width other wide) :=
  inferInstanceAs (Decidable (offset + width ≤ other ∨ other + wide ≤ offset))

/-- If roots do not overlap, those of object references are apart from all interior pointers, whose words change. -/
theorem Layout.apart_of_roots {layout : Layout} (apart : (layout.roots.map (·.offset.toNat)).Pairwise Buffer.Apart) :
    (layout.interiors.map (·.offset.toNat)).Pairwise Buffer.Apart ∧
      ∀ offset, ⟨offset, .precise⟩ ∈ layout.roots → ∀ slot ∈ layout.interiors.map (·.offset.toNat),
        Buffer.Apart offset.toNat slot := by
  rw [roots, List.map_append, List.map_map, List.map_map] at apart
  obtain ⟨_, interiors, cross⟩ := List.pairwise_append.mp apart
  refine ⟨interiors, fun offset root slot within => cross _ (List.mem_map.mpr ⟨offset, ?_, rfl⟩) _ within⟩
  simpa [roots] using root

namespace LiveFrame

/-- The words that a collection is shown and the places of saved registers share no byte, but that a reference in a
register is where the register is. -/
structure Separate (live : LiveFrame) : Prop where
  roots : (live.roots.map (·.offset.toNat)).Pairwise Buffer.Apart
  saves : ∀ register other slots slots', register ≠ other → live.saved? register = some slots →
    live.saved? other = some slots' → Buffer.Parted (live.distance slots.callerLocation).toNat register.width
      (live.distance slots'.callerLocation).toNat other.width
  told : ∀ reference ∈ live.references, ∀ register slots, live.saved? register = some slots →
    live.kept? reference.location ≠ some (register, slots) →
      Buffer.Parted (live.placeOf reference.location).toNat 8 (live.distance slots.callerLocation).toNat register.width

private theorem precise_mem_roots {reference : Reference} (told : reference ∈ live.references)
    (object : reference.interior = false) : ⟨live.placeOf reference.location, .precise⟩ ∈ live.roots := by
  simp only [roots, List.mem_append, List.mem_map, List.mem_filter]
  exact .inl ⟨reference, ⟨told, by simp [object]⟩, rfl⟩

private theorem savedByte?_outside (outside : ∀ slots, live.saved? register = some slots →
      Buffer.Parted index 1 (slots.callerLocation - live.sp).toNat register.width) :
    live.savedByte? index register = none := by
  unfold savedByte?
  cases asked : live.registers register with
  | none => rfl
  | some slots =>
    cases isSaved : slots.isSaved with
    | false => simp only [isSaved, Bool.false_and, Bool.false_eq_true, if_false]
    | true =>
      have apart := outside slots (saved?_eq_some.mpr ⟨asked, isSaved⟩)
      unfold Buffer.Parted at apart
      simp only [isSaved, Bool.true_and, decide_eq_true_eq]
      split
      next behind => exact List.getElem?_eq_none (by rw [LittleEndian.length_encode]; omega)
      next => rfl

private theorem savedByte?_inside (held : live.saved? register = some slots) :
    live.savedByte? ((slots.callerLocation - live.sp).toNat + index) register =
      (LittleEndian.encode register.width slots.value.toNat)[index]? := by
  obtain ⟨asked, isSaved⟩ := saved?_eq_some.mp held
  simp only [savedByte?, asked, isSaved, Bool.true_and, decide_eq_true_eq, Nat.le_add_right, if_true,
    Nat.add_sub_cancel_left]

private theorem copiedByte_outside (outside : ∀ register slots, live.saved? register = some slots →
      Buffer.Parted index 1 (slots.callerLocation - live.sp).toNat register.width) :
    live.copiedByte memory index = memory.byte (live.sp + UInt64.ofNat index) := by
  have none_here : Register.all.reverse.findSome? (live.savedByte? index) = none :=
    List.findSome?_eq_none_iff.mpr fun register _ => savedByte?_outside (outside register)
  rw [copiedByte, none_here, Option.getD_none]

private theorem copiedByte_inside (held : live.saved? register = some slots) (inside : index < register.width)
    (outside : ∀ other ≠ register, ∀ slots', live.saved? other = some slots' →
      Buffer.Parted ((slots.callerLocation - live.sp).toNat + index) 1 (slots'.callerLocation - live.sp).toNat
        other.width) :
    some (live.copiedByte memory ((slots.callerLocation - live.sp).toNat + index)) =
      (LittleEndian.encode register.width slots.value.toNat)[index]? := by
  have here : live.savedByte? ((slots.callerLocation - live.sp).toNat + index) register = _ := savedByte?_inside held
  obtain ⟨byte, shown⟩ : ∃ byte, (LittleEndian.encode register.width slots.value.toNat)[index]? = some byte :=
    ⟨_, List.getElem?_eq_getElem (by rwa [LittleEndian.length_encode])⟩
  rw [shown] at here ⊢
  cases found : Register.all.reverse.findSome? (live.savedByte? ((slots.callerLocation - live.sp).toNat + index)) with
  | none =>
    have missed := List.findSome?_eq_none_iff.mp found register (List.mem_reverse.mpr register.mem_all)
    rw [here] at missed
    cases missed
  | some other =>
    obtain ⟨last, _, told⟩ := List.exists_of_findSome?_eq_some found
    have same : last = register := by
      by_contra different
      rw [savedByte?_outside (outside last different)] at told
      cases told
    have alike : some byte = some other := here.symm.trans (same ▸ told)
    rw [copiedByte, found, Option.getD_some, alike]

private theorem copiedWord_outside (outside : ∀ register slots, live.saved? register = some slots →
      Buffer.Parted (location - live.sp).toNat 8 (slots.callerLocation - live.sp).toNat register.width) :
    live.copiedWord memory (location - live.sp).toNat = memory.word location := by
  unfold copiedWord Memory.word Memory.bytes
  congr 2
  funext i
  have apart : ∀ register slots, live.saved? register = some slots →
      Buffer.Parted ((location - live.sp).toNat + i) 1 (slots.callerLocation - live.sp).toNat register.width := by
    intro register slots held
    have apart := outside register slots held
    unfold Buffer.Parted at apart ⊢
    omega
  have place : live.sp + UInt64.ofNat ((location - live.sp).toNat + i) = location + UInt64.ofNat i := by
    rw [UInt64.ofNat_add, UInt64.ofNat_toNat, ← UInt64.add_assoc, UInt64.add_comm live.sp, UInt64.sub_add_cancel]
  rw [copiedByte_outside apart, place]

private theorem copiedWord_inside (held : live.saved? register = some slots)
    (outside : ∀ other ≠ register, ∀ slots', live.saved? other = some slots' →
      Buffer.Parted (slots.callerLocation - live.sp).toNat register.width (slots'.callerLocation - live.sp).toNat
        other.width) :
    live.copiedWord memory (slots.callerLocation - live.sp).toNat = UInt64.ofNat slots.value.toNat := by
  obtain ⟨more, wide⟩ := Nat.exists_eq_add_of_le register.le_width
  have bytes : (List.ofFn fun i : Fin 8 => live.copiedByte memory ((slots.callerLocation - live.sp).toNat + i)) =
      LittleEndian.encode 8 slots.value.toNat := by
    rw [← LittleEndian.take_encode 8 more, ← wide]
    apply List.ext_getElem?
    intro i
    rw [List.getElem?_ofFn, List.getElem?_take]
    by_cases inside : i < 8
    · rw [dif_pos inside, if_pos inside]
      refine copiedByte_inside held (by omega) fun other different slots' held' => ?_
      have apart := outside other different slots' held'
      unfold Buffer.Parted at apart ⊢
      omega
    · rw [dif_neg inside, if_neg inside]
  have all : LittleEndian.count 8 = 2 ^ 64 := rfl
  rw [copiedWord, bytes, Word.ofBytes, LittleEndian.decode_encode, all]
  exact UInt64.toNat_inj.mp (by simp)

/-- The frame has been frozen with the roots that were told, none of whose distances is cut short, and with the words
of its object references. -/
structure FrozenAs (live : LiveFrame) (memory : Memory) (frozen : FrozenFrame) : Prop where
  whole : frozen.layout.unrecorded = 0
  roots : frozen.layout.roots = live.roots
  places : ∀ reference ∈ live.references ++ live.implied,
    (live.placeOf reference.location).toNat = (live.homeOf reference.location - live.sp).toNat
  fits : ∀ root ∈ live.roots, root.offset.toNat + 8 ≤ frozen.buffer.size
  words : live.Separate → ∀ reference ∈ live.references, reference.interior = false →
    frozen.buffer.read (live.placeOf reference.location).toNat = .ok (live.wordAt memory reference.location)

end LiveFrame

namespace Capture

variable {earlier later : List Shift} {copy : Copied} {noted : List SavedRegister} {image : Buffer} {known : References}
  {frames : List LiveFrame} {count : Nat} {final : Capture} {this : Transit} {reference : Reference}

/-- The word that a frame is copied with where a reference was told of is the one that was there. -/
theorem Copying.copiedWord_eq (copying : Copying context earlier live copy noted image known)
    (located : live.Located context) (separate : live.Separate) (told : reference ∈ live.references) :
    live.copiedWord memory (live.placeOf reference.location).toNat = live.wordAt memory reference.location := by
  have place := copying.place_of_told located (List.mem_append_left _ told)
  rcases located.told reference told with inside | ⟨register, slots, held, here⟩
  · have away := located.not_kept inside
    rw [located.homeOf_inside inside] at place
    have word : live.wordAt memory reference.location = memory.word reference.location := by rw [LiveFrame.wordAt, away]
    rw [place, word]
    refine LiveFrame.copiedWord_outside fun register slots held => ?_
    have apart := separate.told reference told register slots held (by simp [away])
    rwa [place, (copying.place_of_saved held).1] at apart
  · rw [← here, located.homeOf_saved held] at place
    have word : live.wordAt memory reference.location = UInt64.ofNat slots.value.toNat := by
      rw [LiveFrame.wordAt, located.kept_iff.mpr ⟨held, here⟩]
    rw [← here] at word ⊢
    rw [place, word]
    refine LiveFrame.copiedWord_inside held fun other different slots' held' => ?_
    have apart := separate.saves register other slots slots' different.symm held held'
    rwa [(copying.place_of_saved held).1, (copying.place_of_saved held').1] at apart

theorem frozenAs_of_walk (done : walk context {} frames = .ok (count, final)) (member : this ∈ final.transits frames)
    (located : this.source.Located context) : this.source.FrozenAs context.memory this.copy := by
  obtain ⟨before, after, split⟩ := List.append_of_mem member
  have held : (final.transits frames)[before.length]? = some this := by rw [split]; simp
  obtain ⟨copy, visited, copied, same⟩ := copied_of_transits held
  have traced := traced_of_walk done visited copied
  have whole := traced.complete.1
  have size := traced.extent.2.2.1
  obtain ⟨first, noted, image, known, copying, outline, _⟩ := traced
  have layout := Copied.layout_of_outline outline
  rw [← same] at layout size whole
  have roots : this.copy.layout.roots = this.source.roots := by rw [layout, copying.roots_eq located]
  have fits : ∀ root ∈ this.source.roots, root.offset.toNat + 8 ≤ this.copy.buffer.size := by
    rw [size, layout]
    exact copying.roots_fit located
  refine ⟨whole, roots, fun reference => copying.place_of_told located, fits, fun separate reference told object => ?_⟩
  have root := LiveFrame.precise_mem_roots told object
  obtain ⟨apart, alone⟩ := Layout.apart_of_roots (roots ▸ separate.roots)
  rw [← copying.copiedWord_eq located separate told]
  refine LiveFrame.read_copiedWord (fits _ root) fun i small => ?_
  have inside : (this.source.placeOf reference.location).toNat + 8 ≤ this.copy.buffer.size := fits _ root
  refine (faithful_of_walk done split apart).rest _ (by omega) fun slot within covered => ?_
  have clear := alone _ (roots ▸ root) slot within
  unfold Buffer.Apart at clear
  unfold Buffer.Covered at covered
  omega

end Capture
end CallStacks.Frozen
