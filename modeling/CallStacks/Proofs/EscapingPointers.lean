import CallStacks.Proofs.CaptureFailures
import CallStacks.Proofs.RepeatedSlots
import CallStacks.Proofs.ToldRoots

/-! Which walks are refused because a pointer escapes. A capture keeps an account of the entries that wait, so a walk is
refused if a pointer leads out of the frames that are captured from its own on. It is refused just as well if such a
pointer leads to one of them, but its slot has been reported more than once. -/

namespace CallStacks.Frozen

variable {context : CaptureContext} {live : LiveFrame} {frames seen : List LiveFrame} {capture final : Capture}
  {earlier later : List Shift} {places : List Nat} {copy : Copied} {addr : Word} {slot index order : Nat}

namespace LiveFrame

/-- The address lies in the bytes that are copied of the frame. -/
def Reaches (live : LiveFrame) (context : CaptureContext) (addr : Word) : Prop :=
  live.sp.toNat ≤ addr.toNat ∧ addr.toNat < live.callerSp.toNat + (live.copiedArgs context).toNat

instance : Decidable (live.Reaches context addr) := inferInstanceAs (Decidable (_ ∧ _))

/-- The places of the frame's interior pointers, one for each report: those that were told and the saved frame
pointer. -/
def pointers (live : LiveFrame) : List Nat :=
  ((live.references ++ live.implied).filter (·.interior)).map fun reference => (live.placeOf reference.location).toNat

/-- The pointer that the frame is copied with at a place waits until its target is copied. -/
def Waits (live : LiveFrame) (context : CaptureContext) (slot : Nat) : Prop :=
  context.waits live (live.copiedWord context.memory slot) = true

end LiveFrame

/-- A pointer leads out of its own frame and all frames that are captured after it. -/
def Escape (context : CaptureContext) (frames : List LiveFrame) : Prop :=
  ∃ frame after, frame :: after <:+ frames ∧ ∃ slot ∈ frame.pointers, frame.Waits context slot ∧
    ∀ other ∈ frame :: after, ¬ other.Reaches context (frame.copiedWord context.memory slot)

/-- A pointer that has to wait is reported more than once. -/
def Repeat (context : CaptureContext) (frames : List LiveFrame) : Prop :=
  ∃ frame ∈ frames, ∃ slot ∈ frame.pointers, frame.Waits context slot ∧ 1 < frame.pointers.count slot

instance : Decidable (live.Waits context slot) := inferInstanceAs (Decidable (_ = true))

private theorem escape_cons : Escape context (live :: frames) ↔
    (∃ slot ∈ live.pointers, live.Waits context slot ∧
      ∀ other ∈ live :: frames, ¬ other.Reaches context (live.copiedWord context.memory slot)) ∨
        Escape context frames := by
  constructor
  · rintro ⟨frame, after, suffix, leads⟩
    rcases List.suffix_cons_iff.mp suffix with same | within
    · obtain ⟨rfl, rfl⟩ := List.cons.inj same
      exact .inl leads
    · exact .inr ⟨frame, after, within, leads⟩
  · rintro (leads | ⟨frame, after, within, leads⟩)
    · exact ⟨live, frames, List.suffix_refl _, leads⟩
    · exact ⟨frame, after, within.trans (List.suffix_cons _ _), leads⟩

instance decidableEscape : (frames : List LiveFrame) → Decidable (Escape context frames)
  | [] => .isFalse fun ⟨_, _, none_left, _⟩ => by simp at none_left
  | _ :: frames => have := decidableEscape frames; decidable_of_iff _ escape_cons.symm

instance : Decidable (Repeat context frames) := inferInstanceAs (Decidable (∃ frame ∈ frames, _))

/-- The buffers of a capture lie outside the frames, and no pointer into them would wait. -/
def Secluded (context : CaptureContext) (frames : List LiveFrame) : Prop :=
  ∀ entry ∈ frames.zipIdx, ∀ index < entry.1.callerSp.toNat + (entry.1.copiedArgs context).toNat - entry.1.sp.toNat,
    ∀ other ∈ frames, ¬ other.Reaches context (context.place entry.2 + UInt64.ofNat index) ∧
      context.waits other (context.place entry.2 + UInt64.ofNat index) = false

instance : Decidable (Secluded context frames) := inferInstanceAs (Decidable (∀ entry ∈ frames.zipIdx, _))

namespace Capture

variable {registers : List SavedRegister} {image : Buffer} {known : References}

theorem Copying.places_eq (copying : Copying context earlier live copy registers image known) :
    known.places = live.pointers := by
  obtain ⟨rfl, _⟩ := LiveFrame.saveRegisters_entries copying.saved
  have recorded := copying.recorded
  rw [SavedRegister.frameReferences_entries] at recorded
  obtain ⟨_, interiors, _, all, _, told⟩ := References.entries_of_foldlM recorded
  rw [References.places, all, List.nil_append, LiveFrame.pointers, eq_comm, ← List.forall₂_eq_eq_eq,
    List.forall₂_map_left_iff, List.forall₂_map_right_iff]
  exact told.imp fun reference slot placed => by rw [SavedRegister.placeOf_of_offsetOf placed.1]

/-- A pointer still waits if none of the ranges copied from its frame on covers its target, or if it has been reported
more than once. -/
theorem Numbered.mem_places_iff (numbered : Numbered context earlier later places live copy)
    (departs : Departs context live (earlier ++ later)) (aligned : live.pointers.Pairwise Buffer.Aligned) :
    slot ∈ places ↔ slot ∈ live.pointers ∧ live.Waits context slot ∧
      (later.findSome? (·.move? (live.copiedWord context.memory slot)) = none ∨ 1 < live.pointers.count slot) := by
  obtain ⟨first, registers, image, known, copying, tallied⟩ := numbered
  obtain ⟨_, size, bytes⟩ := LiveFrame.copiedByte_of_saveRegisters copying.saved
  rw [copying.places_eq] at tallied
  have tallied := tallied departs aligned
  by_cases within : slot ∈ live.pointers
  · obtain ⟨word, value, was, _, counted⟩ := tallied.each slot within
    obtain rfl := LiveFrame.copiedWord_of_read size bytes was
    rw [← List.count_pos_iff, counted.waiting_iff (List.count_pos_iff.mpr within)]
    simp [within, LiveFrame.Waits]
  · exact iff_of_false (fun inside => within (tallied.waiting.subset inside)) fun told => within told.1

private theorem move?_of_tracks (tracks : Tracks context seen capture) (visited : seen[index]? = some live)
    {shift : Shift} (held : capture.shifts[index]? = some shift) :
    shift.move? addr = if live.Reaches context addr then some (context.place index + (addr - live.sp)) else none := by
  rw [shifts, List.getElem?_map, Array.getElem?_toList] at held
  obtain ⟨copy, copied, rfl⟩ := Option.map_eq_some_iff.mp held
  obtain ⟨extent, base, size, moves⟩ := (tracks.each index live copy visited copied).extent
  have sum := (LiveFrame.extent_spec extent).2
  have small : copy.frame.buffer.size < UInt64.size := by
    rw [size]
    exact Nat.lt_trans copy.frame.layout.recorded.toNat_lt (by decide)
  have inside := (List.getElem?_eq_some_iff.mp visited).1
  have count : (capture.shifts.take index).length = index := by
    rw [List.length_take, length_shifts, tracks.size, Nat.min_eq_left (Nat.le_of_lt inside)]
  have same : Transit.covers ⟨live, copy.frame⟩ addr = decide (live.Reaches context addr) := by
    apply Bool.eq_iff_iff.mpr
    rw [Transit.covers_iff, decide_eq_true_eq, LiveFrame.Reaches, size, sum]
  rw [moves, Transit.move?_shift small, same, Transit.image, base, count]
  simp only [decide_eq_true_eq]

private theorem shift_of_visited (tracks : Tracks context seen capture) (visited : seen[index]? = some live) :
    ∃ shift, capture.shifts[index]? = some shift := by
  have inside := (List.getElem?_eq_some_iff.mp visited).1
  exact ⟨_, List.getElem?_eq_getElem (by rw [length_shifts, tracks.size]; exact inside)⟩

private theorem visited_of_shift (tracks : Tracks context seen capture) {shift : Shift}
    (held : capture.shifts[index]? = some shift) : ∃ live, seen[index]? = some live := by
  have inside := (List.getElem?_eq_some_iff.mp held).1
  rw [length_shifts, tracks.size] at inside
  exact ⟨_, List.getElem?_eq_getElem inside⟩

private theorem missed_iff (tracks : Tracks context seen capture) :
    (capture.shifts.drop index).findSome? (·.move? addr) = none ↔
      ∀ other ∈ seen.drop index, ¬ other.Reaches context addr := by
  rw [List.findSome?_eq_none_iff]
  constructor
  · intro missed other within
    obtain ⟨distance, visited⟩ := List.getElem?_of_mem within
    rw [List.getElem?_drop] at visited
    obtain ⟨shift, held⟩ := shift_of_visited tracks visited
    have none_moved := missed shift (List.mem_of_getElem? (i := distance) (by rwa [List.getElem?_drop]))
    rw [move?_of_tracks tracks visited held] at none_moved
    simpa using none_moved
  · intro outside shift within
    obtain ⟨distance, held⟩ := List.getElem?_of_mem within
    rw [List.getElem?_drop] at held
    obtain ⟨other, visited⟩ := visited_of_shift tracks held
    rw [move?_of_tracks tracks visited held,
      if_neg (outside other (List.mem_of_getElem? (i := distance) (by rwa [List.getElem?_drop])))]

private theorem departs_of_secluded (tracks : Tracks context seen capture) (secluded : Secluded context seen)
    (member : live ∈ seen) : Departs context live capture.shifts := by
  intro shift within word moved hit
  obtain ⟨index, held⟩ := List.getElem?_of_mem within
  obtain ⟨origin, visited⟩ := visited_of_shift tracks held
  rw [move?_of_tracks tracks visited held] at hit
  split at hit
  next reaches =>
    cases hit
    obtain ⟨above, below⟩ := reaches
    have distance : word - origin.sp = UInt64.ofNat (word.toNat - origin.sp.toNat) := by
      rw [← UInt64.toNat_sub_of_le _ _ (UInt64.le_iff_toNat_le.mpr above), UInt64.ofNat_toNat]
    have clear := secluded (origin, index) (List.mem_zipIdx_iff_getElem?.mpr visited)
      (word.toNat - origin.sp.toNat) (by dsimp only; omega)
    rw [distance]
    refine ⟨(clear live member).2, fun other inside => ?_⟩
    obtain ⟨place, held'⟩ := List.getElem?_of_mem inside
    obtain ⟨target, visited'⟩ := visited_of_shift tracks held'
    rw [move?_of_tracks tracks visited' held', if_neg (clear target (List.mem_of_getElem? visited')).1]
  next => cases hit

/-- An entry waits exactly if a pointer escapes or is repeated. -/
theorem waiting_iff (tracks : Tracks context seen capture) (keeps : Keeps (Numbered context) seen capture)
    (secluded : Secluded context seen) (aligned : ∀ live ∈ seen, live.pointers.Pairwise Buffer.Aligned) :
    capture.waiting ≠ [] ↔ Escape context seen ∨ Repeat context seen := by
  have waits : ∀ {index live slot}, seen[index]? = some live → (slot ∈ placesIn index capture.waiting ↔
      slot ∈ live.pointers ∧ live.Waits context slot ∧
        ((∀ other ∈ seen.drop index, ¬ other.Reaches context (live.copiedWord context.memory slot)) ∨
          1 < live.pointers.count slot)) := by
    intro index live slot visited
    obtain ⟨shift, held⟩ := shift_of_visited tracks visited
    rw [shifts, List.getElem?_map, Array.getElem?_toList] at held
    obtain ⟨copy, copied, _⟩ := Option.map_eq_some_iff.mp held
    have member := List.mem_of_getElem? visited
    have departs := departs_of_secluded tracks secluded member
    rw [← List.take_append_drop index capture.shifts] at departs
    rw [(keeps.each index live copy visited copied).mem_places_iff departs (aligned live member), missed_iff tracks]
  have nonempty : ∀ {index slot}, slot ∈ placesIn index capture.waiting → capture.waiting ≠ [] := by
    intro index slot within none_waits
    rw [none_waits] at within
    cases within
  constructor
  · intro waiting
    obtain ⟨pointer, rest, entries⟩ := List.exists_cons_of_ne_nil waiting
    have entry : pointer ∈ capture.waiting := by rw [entries]; exact List.mem_cons_self
    have inside := tracks.waiting pointer entry
    have visited : seen[pointer.frame]? = some seen[pointer.frame] := List.getElem?_eq_getElem inside
    have noted : pointer.offset ∈ placesIn pointer.frame capture.waiting :=
      List.mem_map.mpr ⟨pointer, List.mem_filter.mpr ⟨entry, by simp⟩, rfl⟩
    obtain ⟨told, waits, reason⟩ := (waits visited).mp noted
    rcases reason with outside | again
    · rw [List.drop_eq_getElem_cons inside] at outside
      refine .inl ⟨_, seen.drop (pointer.frame + 1), ?_, _, told, waits, outside⟩
      rw [← List.drop_eq_getElem_cons inside]
      exact List.drop_suffix _ _
    · exact .inr ⟨_, List.mem_of_getElem? visited, _, told, waits, again⟩
  · rintro (⟨frame, after, ⟨before, rfl⟩, slot, told, waiting, outside⟩ | ⟨frame, member, slot, told, waiting, again⟩)
    · have visited : (before ++ frame :: after)[before.length]? = some frame := by simp
      exact nonempty ((waits visited).mpr ⟨told, waiting, .inl (by simpa using outside)⟩)
    · obtain ⟨index, visited⟩ := List.getElem?_of_mem member
      exact nonempty ((waits visited).mpr ⟨told, waiting, .inr again⟩)

/-- Only the end of the run complains, when all suspended frames have been added. -/
theorem walk_refused {count : Nat} (refused : walk context {} frames = .error (.violated (.escaping count))) :
    ∃ final, (suspended frames).foldlM (add context) {} = .ok final ∧ final.waiting ≠ [] := by
  have answered : Prod.snd <$> walk context {} frames = _ := walk_eq
  rw [refused] at answered
  rcases CallStacks.Failure.bind_eq_error.mp answered.symm with failed | ⟨final, added, closed⟩
  · obtain ⟨live, _, rejected⟩ := adds_fail _ failed
    cases rejected with
    | complaint other => cases other
  · refine ⟨final, added, fun none_waits => ?_⟩
    have finished : final.finish = .ok () := by rw [finish, none_waits]; rfl
    unfold close at closed
    rw [finished] at closed
    split at closed
    · cases closed
    · split at closed <;> cases closed

/-- A walk in which nothing else is amiss is refused exactly if a pointer leads out of the frames that are captured from
its own on, or if a pointer that has to wait is reported more than once. -/
theorem walk_refused_iff
    (sound : ∀ fault, walk context {} frames = .error fault → ∃ count, fault = .violated (.escaping count))
    (aligned : ∀ frame ∈ suspended frames, frame.pointers.Pairwise Buffer.Aligned)
    (secluded : Secluded context (suspended frames)) :
    (∃ count, walk context {} frames = .error (.violated (.escaping count))) ↔
      Escape context (suspended frames) ∨ Repeat context (suspended frames) := by
  have account : ∀ {final}, (suspended frames).foldlM (add context) {} = .ok final →
      (final.waiting ≠ [] ↔ Escape context (suspended frames) ∨ Repeat context (suspended frames)) := by
    intro final added
    have unseen : Tracks context [] {} := ⟨rfl, by simp, by simp⟩
    have nothing : Keeps (Numbered context) [] {} := .start
    exact waiting_iff (tracks_of_foldlM unseen added) (nothing.foldlM numbered_of_freeze Numbered.relocateAll added)
      secluded aligned
  constructor
  · rintro ⟨count, refused⟩
    obtain ⟨final, added, waiting⟩ := walk_refused refused
    exact (account added).mp waiting
  · intro amiss
    cases walked : walk context {} frames with
    | error fault =>
      obtain ⟨count, rfl⟩ := sound fault walked
      exact ⟨count, rfl⟩
    | ok answer =>
      obtain ⟨count, final⟩ := answer
      exact absurd (tracks_of_walk walked).2 ((account (walk_spec walked).1).mpr amiss)

def fault? {α : Type} : Except Fault α → Option Fault
  | .ok _ => none
  | .error fault => some fault

private theorem error_of_fault? {α : Type} {answer : Except Fault α} {fault : Fault}
    (told : fault? answer = some fault) :
    answer = .error fault := by
  cases answer with
  | ok => cases told
  | error => exact congrArg Except.error (Option.some.inj told)

def upwardContext : CaptureContext :=
  { memory := Memory.blank.writeWord 0x1000 0x1018
    place := fun order => 0x8000 + 0x100 * UInt64.ofNat order
    minArgBytes := 0
    limit := 0x2000 }

/-- The frame above ends the run. -/
def stray : List LiveFrame :=
  [{ holdsMark := true, sp := 0x1000, callerSp := 0x1010, returnSlot := 0x1008, references := [⟨0x1000, true, false⟩] },
   { kind := .boundary, holdsMark := false, sp := 0x1010, callerSp := 0x1020, returnSlot := 0x1018 }]

theorem walk_refused_iff_stray : Escape upwardContext (suspended stray) ∧
    ∃ count, walk upwardContext {} stray = .error (.violated (.escaping count)) := by
  have refused := error_of_fault? (show fault? (walk upwardContext {} stray) = some (.violated (.escaping 1)) by
    decide +kernel)
  have escape : Escape upwardContext (suspended stray) := by decide +kernel
  refine ⟨escape, (walk_refused_iff (fun fault failed => ?_) (by decide +kernel) (by decide +kernel)).mpr (.inl escape)⟩
  rw [refused] at failed
  cases failed
  exact ⟨1, rfl⟩

/-- The frame above is captured too, but the slot is reported twice. -/
def twice : List LiveFrame :=
  [{ holdsMark := true, sp := 0x1000, callerSp := 0x1010, returnSlot := 0x1008,
     references := [⟨0x1000, true, false⟩, ⟨0x1000, true, true⟩] },
   { holdsMark := false, sp := 0x1010, callerSp := 0x1020, returnSlot := 0x1018 }]

/-- A walk is refused though no pointer leads out of the captured frames. -/
theorem walk_refuses_repeat : walk upwardContext {} twice = .error (.violated (.escaping 1)) ∧
    ¬ Escape upwardContext (suspended twice) :=
  ⟨error_of_fault? (by decide +kernel), by decide +kernel⟩

end Capture
end CallStacks.Frozen
