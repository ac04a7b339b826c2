import CallStacks.Proofs.CaptureMoves

/-! Pointers whose slots are reported more than once. Each report of a pointer that waits makes an entry of its own,
and the first entry that finds the target copied rewrites the slot. What the slot holds then lies in no captured frame,
so the other entries wait for good. -/

namespace CallStacks.Frozen

namespace Buffer

variable {buffer after : Buffer} {slots left : List Nat} {slot other : Nat} {shift : Shift}

def Aligned (slot other : Nat) : Prop := slot = other ∨ Apart slot other

instance : DecidableRel Aligned := fun slot other => inferInstanceAs (Decidable (slot = other ∨ Apart slot other))

instance : Std.Symm Aligned := ⟨fun _ _ aligned => aligned.imp Eq.symm Or.symm⟩

theorem Aligned.apart (aligned : Aligned slot other) (different : slot ≠ other) : Apart slot other :=
  aligned.resolve_left different

/-- Each word at one of some slots has moved, if at all, on behalf of one of its entries. -/
structure MovedOnce (shift : Shift) (slots left : List Nat) (buffer after : Buffer) : Prop where
  size : after.size = buffer.size
  words : ∀ slot ∈ slots, ∃ word, buffer.read slot = .ok word ∧ after.read slot = .ok ((shift.move? word).getD word) ∧
    left.count slot + (shift.move? word).isSome.toNat = slots.count slot
  rest : ∀ index, (∀ slot ∈ slots, ¬ Covered slot index) → after.bytes[index]? = buffer.bytes[index]?
  remaining : left.Sublist slots

theorem MovedOnce.read_apart (moved : MovedOnce shift slots left buffer after)
    (apart : ∀ slot ∈ slots, Apart slot other) : after.read other = buffer.read other :=
  Buffer.read_apart moved.size moved.rest apart

/-- A shift that leads out of its own range moves no word twice. -/
theorem relocateAll_once (aligned : slots.Pairwise Aligned)
    (leads : ∀ word moved, shift.move? word = some moved → shift.move? moved = none)
    (done : relocateAll shift slots buffer = .ok (left, after)) : MovedOnce shift slots left buffer after := by
  induction slots generalizing buffer left with
  | nil =>
    cases done
    exact ⟨rfl, by simp, fun _ _ => rfl, .slnil⟩
  | cons first others ih =>
    obtain ⟨near, aligned⟩ := List.pairwise_cons.mp aligned
    obtain ⟨⟨middle, flag⟩, ran, done⟩ := CallStacks.Failure.bind_eq_ok.mp done
    obtain ⟨⟨remaining, last⟩, more, done⟩ := CallStacks.Failure.bind_eq_ok.mp done
    cases done
    have one := relocate_spec ran
    have many := ih aligned more
    obtain ⟨word, read, read', rfl⟩ := one.slot
    refine ⟨many.size.trans one.size, fun slot within => ?_, fun index outside => ?_, ?_⟩
    · by_cases same : slot = first
      · subst same
        -- what the first entry has left is what the others find
        have later : after.read slot = .ok ((shift.move? word).getD word) ∧ remaining.count slot = others.count slot := by
          by_cases again : slot ∈ others
          · obtain ⟨word', found, left, counted⟩ := many.words slot again
            obtain rfl := Except.ok.inj (read'.symm.trans found)
            have still : shift.move? ((shift.move? word).getD word) = none := by
              cases hit : shift.move? word with
              | none => exact hit
              | some moved => exact leads word moved hit
            rw [still] at left counted
            exact ⟨left, counted⟩
          · have apart : ∀ other ∈ others, Apart other slot := fun other inside =>
              Or.symm ((near other inside).apart fun equal => again (equal ▸ inside))
            refine ⟨(many.read_apart apart).trans read', ?_⟩
            rw [List.count_eq_zero.mpr again, List.count_eq_zero.mpr fun inside => again (many.remaining.subset inside)]
        refine ⟨word, read, later.1, ?_⟩
        cases hit : shift.move? word <;> simp [later.2]
      · have inside := (List.mem_cons.mp within).resolve_left same
        obtain ⟨word', found, left, counted⟩ := many.words slot inside
        have untouched : middle.read slot = buffer.read slot := read_congr one.size fun index covered =>
          one.rest index (((near slot inside).apart (Ne.symm same)).not_covered covered)
        refine ⟨word', untouched ▸ found, left, ?_⟩
        rw [List.count_cons_of_ne (Ne.symm same), ← counted]
        split
        · rfl
        · rw [List.count_cons_of_ne (Ne.symm same)]
    · rw [many.rest index fun other within => outside other (List.mem_cons_of_mem _ within)]
      exact one.rest index (outside first List.mem_cons_self)
    · split
      · exact many.remaining.cons _
      · exact many.remaining.cons_cons _

end Buffer

variable {context : CaptureContext} {earlier later shifts : List Shift} {frame : LiveFrame} {shift : Shift}
  {image buffer after : Buffer} {slots pending left : List Nat} {slot : Nat} {word value : Word}

/-- Nothing moves the pointer, and it does not wait. -/
def Foreign (context : CaptureContext) (frame : LiveFrame) (shifts : List Shift) (word : Word) : Prop :=
  context.waits frame word = false ∧ ∀ shift ∈ shifts, shift.move? word = none

def Departs (context : CaptureContext) (frame : LiveFrame) (shifts : List Shift) : Prop :=
  ∀ shift ∈ shifts, ∀ word moved, shift.move? word = some moved → Foreign context frame shifts moved

theorem Departs.of_append (departs : Departs context frame (earlier ++ later)) : Departs context frame earlier := by
  intro shift within word moved hit
  obtain ⟨passes, missed⟩ := departs shift (List.mem_append_left _ within) word moved hit
  exact ⟨passes, fun other inside => missed other (List.mem_append_left _ inside)⟩

theorem Departs.findSome? {moved : Word} (departs : Departs context frame shifts) (within : later ⊆ shifts)
    (hit : later.findSome? (·.move? word) = some moved) : Foreign context frame shifts moved := by
  obtain ⟨shift, inside, found⟩ := List.exists_of_findSome?_eq_some hit
  exact departs shift (within inside) word moved found

/-- Where a pointer that the image holds has got to, and how many of its entries still wait. -/
def Counted (context : CaptureContext) (earlier later : List Shift) (frame : LiveFrame) (word value : Word)
    (reported waiting : Nat) : Prop :=
  if context.waits frame word then
    match later.findSome? (·.move? word) with
    | none => value = word ∧ waiting = reported
    | some moved => value = moved ∧ waiting + 1 = reported
  else value = (earlier.findSome? (·.move? word)).getD word ∧ waiting = 0

def Joined (extra : Nat) (joins : Prop) : Prop := extra = 0 ∧ ¬ joins ∨ extra = 1 ∧ joins

namespace Counted

variable {reported waiting extra : Nat} {reached : Word} {joins : Prop}

private theorem first (followed : Followed context earlier [] frame word value joins) (joined : Joined extra joins) :
    Counted context earlier [] frame word value 1 extra := by
  unfold Counted
  unfold Followed at followed
  split at followed
  next waits =>
    obtain ⟨held, rfl, _⟩ := followed.resolve_right fun both => by simp at both
    rw [if_pos waits]
    exact ⟨rfl, (joined.resolve_left fun none => none.2 held).1⟩
  next passes =>
    rw [if_neg passes]
    exact ⟨followed.2, (joined.resolve_right fun one => followed.1 one.2).1⟩

/-- A slot that is read once more holds the same pointer if it waits, and a foreign one otherwise. -/
theorem again (counted : Counted context earlier [] frame word value reported waiting)
    (departs : Departs context frame earlier) (followed : Followed context earlier [] frame value reached joins)
    (joined : Joined extra joins) : Counted context earlier [] frame word reached (reported + 1) (waiting + extra) := by
  unfold Counted at counted ⊢
  split
  next waits =>
    rw [if_pos waits] at counted
    obtain ⟨rfl, rfl⟩ := counted
    have one := first followed joined
    rw [Counted, if_pos waits] at one
    exact ⟨one.1, by rw [one.2]⟩
  next passes =>
    rw [if_neg passes] at counted
    obtain ⟨rfl, rfl⟩ := counted
    have foreign : ¬ context.waits frame ((earlier.findSome? (·.move? word)).getD word) ∧
        (earlier.findSome? (·.move? ((earlier.findSome? (·.move? word)).getD word))).getD
            ((earlier.findSome? (·.move? word)).getD word) = (earlier.findSome? (·.move? word)).getD word := by
      cases hit : earlier.findSome? (·.move? word) with
      | none => exact ⟨passes, by rw [Option.getD_none, hit, Option.getD_none]⟩
      | some moved =>
        obtain ⟨outside, missed⟩ := departs.findSome? (List.Subset.refl _) hit
        rw [Option.getD_some, List.findSome?_eq_none_iff.mpr missed]
        exact ⟨by simp [outside], rfl⟩
    have one := first followed joined
    rw [Counted, if_neg foreign.1, foreign.2] at one
    exact ⟨one.1, by rw [one.2]⟩

private theorem shifted (counted : Counted context earlier later frame word value reported waiting)
    (departs : Departs context frame (earlier ++ later ++ [shift])) (some_waits : 0 < waiting)
    (remaining : extra + (shift.move? value).isSome.toNat = waiting) :
    Counted context earlier (later ++ [shift]) frame word ((shift.move? value).getD value) reported extra := by
  unfold Counted at counted ⊢
  rw [List.findSome?_append]
  split
  next waits =>
    rw [if_pos waits] at counted
    cases hit : later.findSome? (·.move? word) with
    | none =>
      rw [hit] at counted
      obtain ⟨rfl, rfl⟩ := counted
      rw [Option.none_or, List.findSome?_singleton]
      cases found : shift.move? value with
      | none => exact ⟨rfl, by simpa [found] using remaining⟩
      | some moved => exact ⟨rfl, by simpa [found] using remaining⟩
    | some moved =>
      rw [hit] at counted
      obtain ⟨rfl, rfl⟩ := counted
      have missed := (departs.findSome? (fun other inner => by simp [inner]) hit).2 shift (by simp)
      rw [missed] at remaining ⊢
      exact ⟨rfl, by rw [← remaining]; rfl⟩
  next passes =>
    rw [if_neg passes] at counted
    omega

private theorem settled (counted : Counted context earlier later frame word value reported 0) (known : 0 < reported) :
    Counted context earlier (later ++ [shift]) frame word value reported 0 := by
  unfold Counted at counted ⊢
  split
  next waits =>
    rw [if_pos waits] at counted
    cases hit : later.findSome? (·.move? word) with
    | none =>
      rw [hit] at counted
      omega
    | some moved =>
      rw [hit] at counted
      rw [List.findSome?_append, hit, Option.some_or]
      exact counted
  next passes =>
    rw [if_neg passes] at counted
    exact counted

/-- Some entry still waits exactly if none of the ranges covers the target, or if there is more than one entry. -/
theorem waiting_iff (counted : Counted context earlier later frame word value reported waiting) (known : 0 < reported) :
    0 < waiting ↔
      context.waits frame word = true ∧ (later.findSome? (·.move? word) = none ∨ 1 < reported) := by
  unfold Counted at counted
  split at counted
  next waits =>
    cases hit : later.findSome? (·.move? word) <;> rw [hit] at counted <;> simp [waits] <;> omega
  next passes => simp [passes, counted.2]

end Counted

/-- A buffer whose pointers have been followed through the ranges copied so far, entry by entry. -/
structure Tallied (context : CaptureContext) (earlier later : List Shift) (frame : LiveFrame) (image : Buffer)
    (slots pending : List Nat) (buffer : Buffer) : Prop where
  size : buffer.size = image.size
  rest : ∀ index, (∀ slot ∈ slots, ¬ Buffer.Covered slot index) → buffer.bytes[index]? = image.bytes[index]?
  waiting : pending.Sublist slots
  each : ∀ slot ∈ slots, ∃ word value, image.read slot = .ok word ∧ buffer.read slot = .ok value ∧
    Counted context earlier later frame word value (slots.count slot) (pending.count slot)

namespace Tallied

private theorem start (image : Buffer) : Tallied context earlier later frame image [] [] image :=
  ⟨rfl, fun _ _ => rfl, .slnil, by simp⟩

private theorem extend {more : List Nat} (tallied : Tallied context earlier [] frame image slots pending buffer)
    (departs : Departs context frame earlier) (aligned : ∀ other ∈ slots, Buffer.Aligned other slot)
    (size : after.size = buffer.size)
    (rest : ∀ index, ¬ Buffer.Covered slot index → after.bytes[index]? = buffer.bytes[index]?)
    (was : buffer.read slot = .ok word) (now : after.read slot = .ok value) (joins : more = [] ∨ more = [slot])
    (followed : Followed context earlier [] frame word value (slot ∈ more)) :
    Tallied context earlier [] frame image (slots ++ [slot]) (pending ++ more) after := by
  have joined : Joined (more.count slot) (slot ∈ more) := by
    rcases joins with rfl | rfl
    · exact .inl ⟨rfl, by simp⟩
    · exact .inr ⟨List.count_singleton_self, by simp⟩
  have only : more.Sublist [slot] := by
    rcases joins with rfl | rfl
    · exact List.nil_sublist _
    · exact .refl _
  refine ⟨size.trans tallied.size, fun index outside => ?_, tallied.waiting.append only, fun other within => ?_⟩
  · rw [rest index (outside slot (by simp))]
    exact tallied.rest index fun other within => outside other (List.mem_append_left _ within)
  by_cases same : other = slot
  · subst same
    rw [List.count_append, List.count_append, List.count_singleton_self]
    by_cases again : other ∈ slots
    · obtain ⟨word', value', was', now', counted⟩ := tallied.each other again
      obtain rfl := Except.ok.inj (was.symm.trans now')
      exact ⟨word', value, was', now, counted.again departs followed joined⟩
    · have untouched : buffer.read other = image.read other := Buffer.read_apart tallied.size tallied.rest
        fun slot within => (aligned slot within).apart fun equal => again (equal ▸ within)
      refine ⟨word, value, untouched ▸ was, now, ?_⟩
      rw [List.count_eq_zero.mpr again, List.count_eq_zero.mpr fun within => again (tallied.waiting.subset within),
        Nat.zero_add, Nat.zero_add]
      exact .first followed joined
  · have inside : other ∈ slots := by simpa [same] using within
    obtain ⟨word', value', was', now', counted⟩ := tallied.each other inside
    have kept : after.read other = buffer.read other := Buffer.read_congr size fun index covered =>
      rest index (Buffer.Apart.not_covered (Or.symm ((aligned other inside).apart same)) covered)
    have absent : ∀ list : List Nat, list.Sublist [slot] → list.count other = 0 := fun list part =>
      List.count_eq_zero.mpr fun within => same (List.mem_singleton.mp (part.subset within))
    refine ⟨word', value', was', kept.trans now', ?_⟩
    rwa [List.count_append, List.count_append, absent more only, absent [slot] (.refl _)]

private theorem relocateAll (tallied : Tallied context earlier later frame image slots pending buffer)
    (departs : Departs context frame (earlier ++ later ++ [shift])) (aligned : slots.Pairwise Buffer.Aligned)
    (done : Buffer.relocateAll shift pending buffer = .ok (left, after)) :
    Tallied context earlier (later ++ [shift]) frame image slots left after := by
  have last : shift ∈ earlier ++ later ++ [shift] := by simp
  have moved := Buffer.relocateAll_once (aligned.sublist tallied.waiting)
    (fun word moved hit => (departs shift last word moved hit).2 shift last) done
  refine ⟨moved.size.trans tallied.size, fun index outside => ?_, moved.remaining.trans tallied.waiting,
    fun slot within => ?_⟩
  · rw [moved.rest index fun other inner => outside other (tallied.waiting.subset inner)]
    exact tallied.rest index outside
  obtain ⟨word, value, was, now, counted⟩ := tallied.each slot within
  by_cases waits : slot ∈ pending
  · obtain ⟨word', read, read', remaining⟩ := moved.words slot waits
    obtain rfl : value = word' := Except.ok.inj (now.symm.trans read)
    exact ⟨word, _, was, read', counted.shifted departs (List.count_pos_iff.mpr waits) remaining⟩
  · have kept : after.read slot = buffer.read slot := moved.read_apart fun other inner => by
      have different : other ≠ slot := fun same => waits (same ▸ inner)
      exact (aligned.forall (tallied.waiting.subset inner) within different).apart different
    rw [List.count_eq_zero.mpr waits] at counted
    refine ⟨word, value, was, kept.trans now, ?_⟩
    rw [List.count_eq_zero.mpr fun inner => waits (moved.remaining.subset inner)]
    exact counted.settled (List.count_pos_iff.mpr within)

end Tallied

namespace References

def Tells (context : CaptureContext) (earlier : List Shift) (frame : LiveFrame) (image : Buffer)
    (known : References) : Prop :=
  Departs context frame earlier → known.places.Pairwise Buffer.Aligned →
    Tallied context earlier [] frame image known.places known.waiting known.buffer

private theorem tells_of_record {registers : List SavedRegister} {known next : References} {reference : Reference}
    (tells : Tells context earlier frame image known)
    (done : record context earlier frame registers known reference = .ok next) :
    Tells context earlier frame image next := by
  cases recorded_of_record done with
  | object => exact tells
  | pointer _ _ _ size rest was now joins followed =>
    intro departs aligned
    simp only [places, List.map_append, List.map_singleton] at aligned ⊢
    obtain ⟨old, _, cross⟩ := List.pairwise_append.mp aligned
    exact (tells departs old).extend departs (fun other within => cross other within _ (by simp)) size rest was now
      joins followed

end References

namespace Capture

variable {copy : Copied} {places : List Nat}

/-- A copied frame whose pointers are tallied, if what moves them leads out of the frames. -/
def Numbered (context : CaptureContext) (earlier later : List Shift) (places : List Nat) (live : LiveFrame)
    (copy : Copied) : Prop :=
  ∃ first registers image known, Copying context earlier live first registers image known ∧
    (Departs context live (earlier ++ later) → known.places.Pairwise Buffer.Aligned →
      Tallied context earlier later live image known.places places copy.frame.buffer)

theorem numbered_of_freeze (done : freeze context earlier frame = .ok (copy, places)) :
    Numbered context earlier [] places frame copy := by
  obtain ⟨registers, image, known, copying, rfl⟩ := freeze_spec done
  refine ⟨copy, registers, image, known, copying, fun departs aligned => ?_⟩
  rw [List.append_nil] at departs
  rw [show copy.frame.buffer = known.buffer by rw [copying.built]]
  refine CallStacks.Failure.foldlM_invariant (References.Tells context earlier frame image) copying.recorded ?_ ?_
    departs aligned
  · exact fun _ _ => .start image
  · exact fun _ _ _ _ tells recorded => References.tells_of_record tells recorded

theorem Numbered.relocateAll (numbered : Numbered context earlier later places frame copy)
    (done : Buffer.relocateAll shift places copy.frame.buffer = .ok (left, buffer)) :
    Numbered context earlier (later ++ [shift]) left frame { copy with frame := { copy.frame with buffer } } := by
  obtain ⟨first, registers, image, known, copying, tallied⟩ := numbered
  refine ⟨first, registers, image, known, copying, fun departs aligned => ?_⟩
  rw [← List.append_assoc] at departs
  exact (tallied departs.of_append aligned).relocateAll departs aligned done

end Capture
end CallStacks.Frozen
