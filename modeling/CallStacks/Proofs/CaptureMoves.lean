import CallStacks.Proofs.CaptureWalk
import CallStacks.Proofs.PointerTracking

/-! The pointers of a whole capture. Pointers of all copied frames wait in one list; for each frame its
part of the list is tracked by itself, while frame after frame is copied. -/

namespace CallStacks.Frozen.Capture

variable {context : CaptureContext} {capture final : Capture} {frame live : LiveFrame} {copy : Copied}
  {frames seen : List LiveFrame} {shift : Shift} {waiting left : List Waiting} {copied moved : Array Copied}
  {index : Nat}

def placesIn (index : Nat) (waiting : List Waiting) : List Nat :=
  (waiting.filter (·.frame = index)).map (·.offset)

private theorem placesIn_append (more : List Waiting) :
    placesIn index (waiting ++ more) = placesIn index waiting ++ placesIn index more := by
  simp only [placesIn, List.filter_append, List.map_append]

private theorem placesIn_map (places : List Nat) : placesIn index (places.map (⟨index, ·⟩)) = places := by
  simp [placesIn, List.filter_map, Function.comp_def]

private theorem placesIn_eq_nil (apart : ∀ pointer ∈ waiting, pointer.frame ≠ index) :
    placesIn index waiting = [] := by
  rw [placesIn, List.filter_eq_nil_iff.mpr fun pointer within => by simpa using apart pointer within,
    List.map_nil]

theorem sublist_of_settle (done : settle shift waiting copied = .ok (left, moved)) : left.Sublist waiting := by
  induction waiting generalizing left copied with
  | nil =>
    cases done
    exact .slnil
  | cons pointer rest ih =>
    unfold settle at done
    split at done
    · cases done
    obtain ⟨⟨buffer, flag⟩, _, done⟩ := CallStacks.Failure.bind_eq_ok.mp done
    obtain ⟨⟨others, last⟩, more, done⟩ := CallStacks.Failure.bind_eq_ok.mp done
    cases done
    split
    · exact (ih more).cons _
    · exact (ih more).cons_cons _

private theorem settle_frame (done : settle shift waiting copied = .ok (left, moved))
    (held : copied[index]? = some copy) :
    ∃ buffer, moved[index]? = some { copy with frame := { copy.frame with buffer } } ∧
      Buffer.relocateAll shift (placesIn index waiting) copy.frame.buffer =
        .ok (placesIn index left, buffer) := by
  induction waiting generalizing left copied copy with
  | nil =>
    cases done
    exact ⟨copy.frame.buffer, held, rfl⟩
  | cons pointer rest ih =>
    unfold settle at done
    split at done
    · cases done
    next owner found =>
    obtain ⟨⟨buffer, flag⟩, relocated, done⟩ := CallStacks.Failure.bind_eq_ok.mp done
    obtain ⟨⟨others, last⟩, more, done⟩ := CallStacks.Failure.bind_eq_ok.mp done
    cases done
    have relocated := insist_eq_ok.mp relocated
    have inside := (Array.getElem?_eq_some_iff.mp held).1
    by_cases here : pointer.frame = index
    · obtain rfl : owner = copy := Option.some.inj (found.symm.trans (here ▸ held))
      have placed : (copied.setIfInBounds pointer.frame { owner with frame := { owner.frame with buffer } })[index]? =
          some { owner with frame := { owner.frame with buffer } } := by
        rw [here, Array.getElem?_setIfInBounds_self_of_lt inside]
      obtain ⟨after, now, rest⟩ := ih more placed
      refine ⟨after, now, ?_⟩
      simp only [placesIn, List.filter_cons, here, decide_true, if_true, List.map_cons]
      simp only [placesIn] at rest
      simp only [Buffer.relocateAll, relocated, rest, bind, Except.bind, pure, Except.pure]
      cases flag <;> simp [here]
    · obtain ⟨after, now, rest⟩ := ih more (by rwa [Array.getElem?_setIfInBounds_ne here])
      refine ⟨after, now, ?_⟩
      have passed : ∀ list : List Waiting, placesIn index (pointer :: list) = placesIn index list := by
        intro list
        simp [placesIn, here]
      rw [passed, rest]
      cases flag with
      | true => rfl
      | false => exact congrArg (fun places => Except.ok (places, after)) (passed others).symm

def Traced (context : CaptureContext) (earlier later : List Shift) (places : List Nat) (live : LiveFrame)
    (copy : Copied) : Prop :=
  ∃ first registers image known, Copying context earlier live first registers image known ∧
    copy.outline = first.outline ∧ copy.frame.buffer.base = image.base ∧
    copy.frame.buffer.size = image.size ∧ (known.places.Pairwise Buffer.Apart →
      Tracked context earlier later live image known.places places copy.frame.buffer)

theorem Traced.relocateAll {earlier later : List Shift} {places left : List Nat} {buffer : Buffer}
    (traced : Traced context earlier later places live copy)
    (done : Buffer.relocateAll shift places copy.frame.buffer = .ok (left, buffer)) :
    Traced context earlier (later ++ [shift]) left live
      { copy with frame := { copy.frame with buffer } } := by
  obtain ⟨first, registers, image, known, copying, outline, base, size, tracked⟩ := traced
  obtain ⟨base', size'⟩ := Buffer.extent_of_relocateAll done
  refine ⟨first, registers, image, known, copying, ?_, base'.trans base, size'.trans size,
    fun apart => (tracked apart).relocateAll apart done⟩
  rw [← outline]
  simp only [Copied.outline, FrozenFrame.offBytes, base']

theorem length_shifts (capture : Capture) : capture.shifts.length = capture.copied.size := by
  simp [shifts]

private theorem shifts_of_settle
    (done : settle shift waiting (capture.copied.push copy) = .ok (final.waiting, final.copied)) :
    final.shifts = capture.shifts ++ [copy.shift] := by
  have outlines := congrArg (fun outlines => outlines.toList.map Prod.snd) (outlines_of_settle done)
  simpa [shifts, Copied.outline, Function.comp_def] using outlines

/-- Something is kept of each copied frame, given the shifts before it, those from it on, and its pointers that wait. -/
structure Keeps (holds : List Shift → List Shift → List Nat → LiveFrame → Copied → Prop) (seen : List LiveFrame)
    (capture : Capture) : Prop where
  size : capture.copied.size = seen.length
  waiting : ∀ pointer ∈ capture.waiting, pointer.frame < seen.length
  each : ∀ index live copy, seen[index]? = some live → capture.copied[index]? = some copy →
    holds (capture.shifts.take index) (capture.shifts.drop index) (placesIn index capture.waiting) live copy

namespace Keeps

variable {holds : List Shift → List Shift → List Nat → LiveFrame → Copied → Prop}

theorem start : Keeps holds [] {} := ⟨rfl, by simp, by simp⟩

-- it holds of a fresh copy, and still when the copy's waiting pointers have looked at one more range
variable
  (fresh : ∀ {earlier places frame copy}, freeze context earlier frame = .ok (copy, places) →
    holds earlier [] places frame copy)
  (moves : ∀ {earlier later places left live copy shift buffer}, holds earlier later places live copy →
    Buffer.relocateAll shift places copy.frame.buffer = .ok (left, buffer) →
      holds earlier (later ++ [shift]) left live { copy with frame := { copy.frame with buffer } })
include fresh moves

private theorem add (keeps : Keeps holds seen capture) (done : capture.add context frame = .ok final) :
    Keeps holds (seen ++ [frame]) final := by
  obtain ⟨copy, places, frozen, settled⟩ := add_spec done
  have shifts := shifts_of_settle settled
  have known : ∀ pointer ∈ capture.waiting ++ places.map (⟨capture.copied.size, ·⟩),
      pointer.frame < seen.length + 1 := by
    intro pointer within
    rcases List.mem_append.mp within with old | new
    · exact Nat.lt_succ_of_lt (keeps.waiting pointer old)
    · obtain ⟨place, _, rfl⟩ := List.mem_map.mp new
      exact Nat.lt_succ_of_le (Nat.le_of_eq keeps.size)
  have sizes := congrArg Array.size (outlines_of_settle settled)
  simp only [Array.size_map, Array.size_push, keeps.size] at sizes
  refine ⟨by simpa using sizes, fun pointer within => ?_, fun index live other visited held => ?_⟩
  · rw [List.length_append, List.length_singleton]
    exact known pointer ((sublist_of_settle settled).subset within)
  · -- the frame was copied earlier, or it is the one just copied
    have inside : index < seen.length + 1 := by
      have bound := (Array.getElem?_eq_some_iff.mp held).1
      omega
    have length : capture.shifts.length = seen.length := (length_shifts capture).trans keeps.size
    rcases Nat.lt_succ_iff_lt_or_eq.mp inside with early | rfl
    · obtain ⟨old, was⟩ : ∃ old, capture.copied[index]? = some old :=
        ⟨_, Array.getElem?_eq_getElem (by rw [keeps.size]; exact early)⟩
      have pushed : (capture.copied.push copy)[index]? = some old := by
        rw [Array.getElem?_push, if_neg (by rw [keeps.size]; omega), was]
      obtain ⟨buffer, now, relocated⟩ := settle_frame settled pushed
      obtain rfl := Option.some.inj (held.symm.trans now)
      have others : placesIn index (places.map (⟨capture.copied.size, ·⟩)) = [] := by
        apply placesIn_eq_nil
        intro pointer within
        obtain ⟨place, _, rfl⟩ := List.mem_map.mp within
        rw [keeps.size]
        exact Nat.ne_of_gt early
      rw [placesIn_append, others, List.append_nil] at relocated
      rw [List.getElem?_append_left early] at visited
      have held' := keeps.each index live old visited was
      rw [shifts, List.take_append_of_le_length (by omega), List.drop_append_of_le_length (by omega)]
      exact moves held' relocated
    · rw [List.getElem?_append_right (Nat.le_refl _), Nat.sub_self] at visited
      obtain rfl : frame = live := Option.some.inj visited
      have pushed : (capture.copied.push copy)[seen.length]? = some copy := by
        rw [Array.getElem?_push, if_pos keeps.size.symm]
      obtain ⟨buffer, now, relocated⟩ := settle_frame settled pushed
      obtain rfl := Option.some.inj (held.symm.trans now)
      have others : placesIn seen.length capture.waiting = [] :=
        placesIn_eq_nil fun pointer within => Nat.ne_of_lt (keeps.waiting pointer within)
      rw [placesIn_append, others, List.nil_append, keeps.size, placesIn_map] at relocated
      rw [shifts, List.take_left' length, List.drop_left' length]
      exact moves (fresh frozen) relocated

theorem foldlM (keeps : Keeps holds seen capture) (done : frames.foldlM (Capture.add context) capture = .ok final) :
    Keeps holds (seen ++ frames) final := by
  induction frames generalizing seen capture with
  | nil =>
    cases done
    rwa [List.append_nil]
  | cons frame rest ih =>
    rw [List.foldlM_cons] at done
    obtain ⟨next, first, others⟩ := CallStacks.Failure.bind_eq_ok.mp done
    have more := ih (keeps.add fresh moves first) others
    rwa [List.append_assoc] at more

end Keeps

structure Tracks (context : CaptureContext) (seen : List LiveFrame) (capture : Capture) : Prop where
  size : capture.copied.size = seen.length
  waiting : ∀ pointer ∈ capture.waiting, pointer.frame < seen.length
  each : ∀ index live copy, seen[index]? = some live → capture.copied[index]? = some copy →
    Traced context (capture.shifts.take index) (capture.shifts.drop index)
      (placesIn index capture.waiting) live copy

private theorem traced_of_freeze {earlier : List Shift} {places : List Nat}
    (done : freeze context earlier frame = .ok (copy, places)) :
    Traced context earlier [] places frame copy := by
  obtain ⟨registers, image, known, copying, rfl⟩ := freeze_spec done
  have follows := References.follows_of_foldlM (.start image) copying.recorded
  have buffer : copy.frame.buffer = known.buffer := by rw [copying.built]
  refine ⟨copy, registers, image, known, copying, rfl, ?_, ?_, ?_⟩
  · rw [buffer, follows.base]
  · rw [buffer, follows.size]
  · rw [buffer]
    exact follows.tracked

theorem tracks_of_foldlM (tracks : Tracks context seen capture)
    (done : frames.foldlM (add context) capture = .ok final) : Tracks context (seen ++ frames) final := by
  have keeps : Keeps (Traced context) seen capture := ⟨tracks.size, tracks.waiting, tracks.each⟩
  obtain ⟨size, waiting, each⟩ := keeps.foldlM traced_of_freeze Traced.relocateAll done
  exact ⟨size, waiting, each⟩

end CallStacks.Frozen.Capture
