import Mathlib.Data.List.Forall2
import Mathlib.Data.List.Pairwise
import CallStacks.Frozen.Capture
import CallStacks.Proofs.BufferMoves

/-! Following interior pointers while a capture is under way. Each pointer of a copied frame is either
settled, at the first copied range that it can point into, or waits for its target to be copied. What is
left of the copy is the image that it was made from. -/

namespace CallStacks.Frozen

variable {context : CaptureContext} {earlier later : List Shift} {frame : LiveFrame} {shift : Shift}
  {image buffer after : Buffer} {slots pending left : List Nat}

def CaptureContext.waits (context : CaptureContext) (frame : LiveFrame) (word : Word) : Bool :=
  frame.sp ≤ word && word < context.limit

/-- Where a pointer that the image holds has got to, given whether it still waits. -/
def Followed (context : CaptureContext) (earlier later : List Shift) (frame : LiveFrame)
    (word value : Word) (waiting : Prop) : Prop :=
  if context.waits frame word then
    (waiting ∧ value = word ∧ later.findSome? (·.move? word) = none) ∨
      (¬ waiting ∧ later.findSome? (·.move? word) = some value)
  else ¬ waiting ∧ value = (earlier.findSome? (·.move? word)).getD word

/-- A buffer whose pointers have been followed through the ranges copied so far: those copied before
the frame, and those copied from the frame on. -/
structure Tracked (context : CaptureContext) (earlier later : List Shift) (frame : LiveFrame)
    (image : Buffer) (slots pending : List Nat) (buffer : Buffer) : Prop where
  base : buffer.base = image.base
  size : buffer.size = image.size
  rest : ∀ index, (∀ slot ∈ slots, ¬ Buffer.Covered slot index) → buffer.bytes[index]? = image.bytes[index]?
  waiting : pending.Sublist slots
  each : ∀ slot ∈ slots, ∃ word value, image.read slot = .ok word ∧ buffer.read slot = .ok value ∧
    Followed context earlier later frame word value (slot ∈ pending)

namespace Tracked

private theorem start (image : Buffer) : Tracked context earlier later frame image [] [] image :=
  ⟨rfl, rfl, fun _ _ => rfl, .slnil, by simp⟩

private theorem read_apart {slot : Nat} (tracked : Tracked context earlier later frame image slots pending buffer)
    (apart : ∀ other ∈ slots, Buffer.Apart other slot) : buffer.read slot = image.read slot :=
  Buffer.read_apart tracked.size tracked.rest apart

private theorem extend {slot : Nat} {word value : Word} {more : List Nat}
    (tracked : Tracked context earlier later frame image slots pending buffer)
    (apart : ∀ other ∈ slots, Buffer.Apart other slot) (base : after.base = buffer.base)
    (size : after.size = buffer.size)
    (rest : ∀ index, ¬ Buffer.Covered slot index → after.bytes[index]? = buffer.bytes[index]?)
    (was : image.read slot = .ok word) (now : after.read slot = .ok value)
    (joins : more = [] ∨ more = [slot])
    (followed : Followed context earlier later frame word value (slot ∈ more)) :
    Tracked context earlier later frame image (slots ++ [slot]) (pending ++ more) after := by
  have absent : slot ∉ slots := fun within => (apart slot within).ne rfl
  refine ⟨base.trans tracked.base, size.trans tracked.size, fun index outside => ?_, ?_, fun other within => ?_⟩
  · rw [rest index (outside slot (by simp))]
    exact tracked.rest index fun other within => outside other (List.mem_append_left _ within)
  · apply tracked.waiting.append
    rcases joins with rfl | rfl
    · exact List.nil_sublist _
    · exact .refl _
  · rcases List.mem_append.mp within with old | new
    · obtain ⟨word', value', was', now', followed'⟩ := tracked.each other old
      have different : other ≠ slot := fun same => absent (same ▸ old)
      have kept : after.read other = buffer.read other := by
        apply Buffer.read_congr size
        intro index covered
        apply rest
        exact fun also => (apart other old).not_covered also covered
      have same : other ∈ pending ++ more ↔ other ∈ pending := by
        rcases joins with rfl | rfl <;> simp [different]
      exact ⟨word', value', was', kept.trans now', by rwa [same]⟩
    · obtain rfl := List.mem_singleton.mp new
      have same : other ∈ pending ++ more ↔ other ∈ more := by
        have fresh : other ∉ pending := fun within => absent (tracked.waiting.subset within)
        simp [fresh]
      exact ⟨word, value, was, now, by rwa [same]⟩

theorem relocateAll (tracked : Tracked context earlier later frame image slots pending buffer)
    (apart : slots.Pairwise Buffer.Apart)
    (done : Buffer.relocateAll shift pending buffer = .ok (left, after)) :
    Tracked context earlier (later ++ [shift]) frame image slots left after := by
  have moved := Buffer.relocateAll_spec (apart.sublist tracked.waiting) done
  refine ⟨moved.base.trans tracked.base, moved.size.trans tracked.size, fun index outside => ?_,
    moved.remaining.trans tracked.waiting, fun slot within => ?_⟩
  · rw [moved.rest index fun other inner => outside other (tracked.waiting.subset inner)]
    exact tracked.rest index outside
  · obtain ⟨word, value, was, now, followed⟩ := tracked.each slot within
    unfold Followed at followed ⊢
    by_cases waits : slot ∈ pending
    · obtain ⟨word', read, read', remains⟩ := moved.slots slot waits
      obtain rfl : value = word' := Except.ok.inj (now.symm.trans read)
      refine ⟨word, _, was, read', ?_⟩
      split at followed
      next inside =>
        obtain ⟨_, rfl, missed⟩ := followed.resolve_right fun both => both.1 waits
        rw [if_pos inside, List.findSome?_append, missed, Option.none_or, remains]
        cases hit : shift.move? value with
        | none => simp [hit]
        | some moved => simp [hit]
      next => exact absurd waits followed.1
    · have kept : after.read slot = buffer.read slot := by
        apply moved.read_apart
        intro other inner
        apply apart.forall (tracked.waiting.subset inner) within
        rintro rfl
        exact waits inner
      have gone : slot ∉ left := fun inner => waits (moved.remaining.subset inner)
      refine ⟨word, value, was, kept.trans now, ?_⟩
      split at followed
      next inside =>
        obtain ⟨_, hit⟩ := followed.resolve_left fun both => waits both.1
        rw [if_pos inside]
        exact .inr ⟨gone, by rw [List.findSome?_append, hit, Option.some_or]⟩
      next outside =>
        rw [if_neg outside]
        exact ⟨gone, followed.2⟩

end Tracked

namespace References

def places (known : References) : List Nat := known.interiors.map (·.offset.toNat)

structure Follows (context : CaptureContext) (earlier : List Shift) (frame : LiveFrame) (image : Buffer)
    (known : References) : Prop where
  base : known.buffer.base = image.base
  size : known.buffer.size = image.size
  tracked : known.places.Pairwise Buffer.Apart →
    Tracked context earlier [] frame image known.places known.waiting known.buffer

theorem Follows.extend {known : References} {slot : InteriorSlot} {word value : Word} {more : List Nat}
    (follows : Follows context earlier frame image known) (base : after.base = known.buffer.base)
    (size : after.size = known.buffer.size)
    (rest : ∀ index, ¬ Buffer.Covered slot.offset.toNat index → after.bytes[index]? = known.buffer.bytes[index]?)
    (was : known.buffer.read slot.offset.toNat = .ok word) (now : after.read slot.offset.toNat = .ok value)
    (joins : more = [] ∨ more = [slot.offset.toNat])
    (followed : Followed context earlier [] frame word value (slot.offset.toNat ∈ more)) :
    Follows context earlier frame image
      { known with buffer := after, interiors := known.interiors ++ [slot], waiting := known.waiting ++ more } := by
  refine ⟨base.trans follows.base, size.trans follows.size, fun apart => ?_⟩
  simp only [places, List.map_append, List.map_singleton] at apart ⊢
  obtain ⟨old, _, cross⟩ := List.pairwise_append.mp apart
  have tracked := follows.tracked old
  have separate : ∀ other ∈ known.places, Buffer.Apart other slot.offset.toNat :=
    fun other within => cross other within _ (by simp)
  exact tracked.extend separate base size rest ((tracked.read_apart separate).symm.trans was) now joins followed

/-- A slot for a reference: in the frame, or where the frame saved the register that holds it. -/
def Slots (registers : List SavedRegister) (frame : LiveFrame) (reference : Reference)
    (slot : InteriorSlot) : Prop :=
  SavedRegister.offsetOf registers frame reference.location = .ok slot.offset ∧ slot.pinned = reference.pinned

/-- What recording a reference does: an object reference has its place noted down, and an interior pointer has its
slot recorded with a word that is followed as far as it can be. -/
inductive Recorded (context : CaptureContext) (earlier : List Shift) (frame : LiveFrame)
    (registers : List SavedRegister) (known : References) (reference : Reference) : References → Prop
  | object {offset : UInt32} (plain : reference.interior = false)
      (placed : SavedRegister.offsetOf registers frame reference.location = .ok offset) :
      Recorded context earlier frame registers known reference
        { known with objects := known.objects ++ [offset] }
  | pointer {slot : InteriorSlot} {word value : Word} {after : Buffer} {more : List Nat}
      (interior : reference.interior = true) (placed : Slots registers frame reference slot)
      (base : after.base = known.buffer.base) (size : after.size = known.buffer.size)
      (rest : ∀ index, ¬ Buffer.Covered slot.offset.toNat index → after.bytes[index]? = known.buffer.bytes[index]?)
      (was : known.buffer.read slot.offset.toNat = .ok word) (now : after.read slot.offset.toNat = .ok value)
      (joins : more = [] ∨ more = [slot.offset.toNat])
      (followed : Followed context earlier [] frame word value (slot.offset.toNat ∈ more)) :
      Recorded context earlier frame registers known reference
        { known with buffer := after, interiors := known.interiors ++ [slot], waiting := known.waiting ++ more }

theorem recorded_of_record {registers : List SavedRegister} {known next : References} {reference : Reference}
    (done : record context earlier frame registers known reference = .ok next) :
    Recorded context earlier frame registers known reference next := by
  unfold record at done
  dsimp only at done
  split at done
  · cases done
  obtain ⟨offset, placed, done⟩ := CallStacks.Failure.bind_eq_ok.mp done
  split at done
  next plain =>
    cases done
    exact .object (by simpa using plain) placed
  next interior =>
  have interior : reference.interior = true := by simpa using interior
  have slots : Slots registers frame reference ⟨offset, reference.pinned⟩ := ⟨placed, rfl⟩
  obtain ⟨target, read, done⟩ := CallStacks.Failure.bind_eq_ok.mp done
  have read := insist_eq_ok.mp read
  -- an interior pointer waits, or it is moved at once, or it stays as it is
  split at done
  next waits =>
    have inside : context.waits frame target = true := waits
    cases done
    refine .pointer interior slots rfl rfl (fun _ _ => rfl) read read (.inr rfl) ?_
    unfold Followed
    rw [if_pos inside]
    exact .inl ⟨by simp, rfl, rfl⟩
  next leaves =>
    have outside : ¬ context.waits frame target = true := by simpa [CaptureContext.waits] using leaves
    split at done
    next moved hit =>
      obtain ⟨written, wrote, done⟩ := CallStacks.Failure.bind_eq_ok.mp done
      have wrote := insist_eq_ok.mp wrote
      obtain ⟨_, shape⟩ := (Buffer.writeBytes_eq_ok_iff _ _ _ _).mp wrote
      cases done
      rw [← List.append_nil known.waiting]
      refine .pointer interior slots (by rw [shape]; rfl) (by rw [shape]; exact Buffer.size_overlay _ _ _)
        (fun _ => Buffer.byte_written wrote) read (Buffer.read_written wrote) (.inl rfl) ?_
      unfold Followed
      rw [if_neg outside, hit]
      exact ⟨by simp, rfl⟩
    next miss =>
      cases done
      rw [← List.append_nil known.waiting]
      refine .pointer interior slots rfl rfl (fun _ _ => rfl) read read (.inl rfl) ?_
      unfold Followed
      rw [if_neg outside, miss]
      exact ⟨by simp, rfl⟩

private theorem follows_of_record {registers : List SavedRegister} {known next : References} {reference : Reference}
    (follows : Follows context earlier frame image known)
    (done : record context earlier frame registers known reference = .ok next) :
    Follows context earlier frame image next := by
  cases recorded_of_record done with
  | object => exact ⟨follows.base, follows.size, follows.tracked⟩
  | pointer _ _ base size rest was now joins followed => exact follows.extend base size rest was now joins followed

theorem Follows.start (image : Buffer) : Follows context earlier frame image { buffer := image } :=
  ⟨rfl, rfl, fun _ => Tracked.start image⟩

theorem follows_of_foldlM {registers : List SavedRegister} {references : List Reference}
    {known final : References} (follows : Follows context earlier frame image known)
    (done : references.foldlM (record context earlier frame registers) known = .ok final) :
    Follows context earlier frame image final := by
  apply CallStacks.Failure.foldlM_invariant (Follows context earlier frame image) done follows
  exact fun _ _ _ _ holds recorded => follows_of_record holds recorded

/-- There is one place for each object reference and one slot for each interior pointer, in their order. -/
theorem entries_of_foldlM {registers : List SavedRegister} {references : List Reference}
    {known final : References}
    (done : references.foldlM (record context earlier frame registers) known = .ok final) :
    ∃ objects slots, final.objects = known.objects ++ objects ∧ final.interiors = known.interiors ++ slots ∧
      List.Forall₂ (fun reference offset => SavedRegister.offsetOf registers frame reference.location = .ok offset)
        (references.filter (!·.interior)) objects ∧
      List.Forall₂ (Slots registers frame) (references.filter (·.interior)) slots := by
  induction references generalizing known with
  | nil =>
    cases done
    exact ⟨[], [], by simp, by simp, .nil, .nil⟩
  | cons reference rest ih =>
    rw [List.foldlM_cons] at done
    obtain ⟨next, first, others⟩ := CallStacks.Failure.bind_eq_ok.mp done
    obtain ⟨objects, slots, allObjects, allSlots, told, slotted⟩ := ih others
    cases recorded_of_record first with
    | object plain placed =>
      rw [List.filter_cons_of_pos (by simp [plain]), List.filter_cons_of_neg (by simp [plain])]
      exact ⟨_ :: objects, slots, by simp [allObjects], allSlots, .cons placed told, slotted⟩
    | pointer interior placed =>
      rw [List.filter_cons_of_neg (by simp [interior]), List.filter_cons_of_pos interior]
      exact ⟨objects, _ :: slots, allObjects, by simp [allSlots], told, .cons placed slotted⟩

end References
end CallStacks.Frozen
