import CallStacks.Frozen.Capture
import CallStacks.Proofs.BufferMoves
import CallStacks.Proofs.StoreFrames

/-! Which frames a capture takes, and what it never sets. The walk comes down to adding the frames of
one run in turn. -/

namespace CallStacks.Frozen

variable {context : CaptureContext} {capture final : Capture} {frame : LiveFrame}
  {frames : List LiveFrame} {shift : Shift} {count : Nat}

def LiveFrame.starts (frame : LiveFrame) : Bool := frame.kind = .suspendable && frame.holdsMark

/-- The frames that a walk suspends: from the first that holds the mark up to the next boundary. -/
def suspended (frames : List LiveFrame) : List LiveFrame :=
  (frames.dropWhile (!·.starts)).takeWhile (·.kind = .suspendable)

theorem suspended_sublist (frames : List LiveFrame) : (suspended frames).Sublist frames :=
  (List.takeWhile_sublist _).trans (List.dropWhile_sublist _)

namespace Copied

def outline (copy : Copied) : FrozenFrame × Shift := (copy.frame.offBytes, copy.shift)

theorem layout_of_outline {copy other : Copied} (same : copy.outline = other.outline) :
    copy.frame.layout = other.frame.layout :=
  congrArg (·.1.layout) same

end Copied

namespace Capture

theorem outlines_of_settle {waiting later : List Waiting} {copied moved : Array Copied}
    (done : settle shift waiting copied = .ok (later, moved)) :
    moved.map Copied.outline = copied.map Copied.outline := by
  induction waiting generalizing later copied with
  | nil =>
    cases done
    rfl
  | cons pointer rest ih =>
    unfold settle at done
    split at done
    · cases done
    next owner held =>
    obtain ⟨⟨buffer, flag⟩, relocated, done⟩ := CallStacks.Failure.bind_eq_ok.mp done
    obtain ⟨⟨others, last⟩, more, done⟩ := CallStacks.Failure.bind_eq_ok.mp done
    cases done
    have base := (Buffer.relocate_spec (insist_eq_ok.mp relocated)).base
    obtain ⟨inside, same⟩ := Array.getElem?_eq_some_iff.mp held
    rw [ih more, Array.map_setIfInBounds]
    apply Array.ext_getElem?
    intro i
    rw [Array.getElem?_setIfInBounds]
    split
    next here =>
      subst here
      rw [if_pos (by simpa using inside), Array.getElem?_map, held]
      simp only [Copied.outline, FrozenFrame.offBytes, base, Option.map_some]
    next => rfl

theorem add_spec (done : capture.add context frame = .ok final) :
    ∃ copy places, freeze context capture.shifts frame = .ok (copy, places) ∧
      settle copy.shift (capture.waiting ++ places.map (⟨capture.copied.size, ·⟩))
        (capture.copied.push copy) = .ok (final.waiting, final.copied) := by
  unfold add at done
  obtain ⟨⟨copy, places⟩, frozen, done⟩ := CallStacks.Failure.bind_eq_ok.mp done
  obtain ⟨⟨waiting, copied⟩, settled, done⟩ := CallStacks.Failure.bind_eq_ok.mp done
  cases done
  exact ⟨copy, places, frozen, settled⟩

private theorem hasStarted_of_add (done : capture.add context frame = .ok final) : final.hasStarted = true := by
  obtain ⟨copy, places, _, settled⟩ := add_spec done
  have sizes := congrArg Array.size (outlines_of_settle settled)
  simp only [Array.size_map, Array.size_push] at sizes
  simp only [hasStarted, Bool.not_eq_true', Array.isEmpty_eq_false_iff, ne_eq]
  intro none
  rw [none] at sizes
  simp at sizes

def close (rest : List LiveFrame) (capture : Capture) : Except Fault Capture :=
  match rest with
  | [] => capture.finish >>= fun _ => .ok capture
  | frame :: _ =>
    if frame.kind = .foreign then .error (.violated (.strayFrame frame.sp)) else capture.finish >>= fun _ => .ok capture

private theorem close_eq_ok {rest : List LiveFrame} (closed : capture.close rest = .ok final) :
    capture = final ∧ final.finish = .ok () := by
  have ended : ∀ part : Except Fault Unit, (part >>= fun _ => .ok capture) = .ok final →
      capture = final ∧ part = .ok () := by
    intro part done
    obtain ⟨_, finished, done⟩ := CallStacks.Failure.bind_eq_ok.mp done
    exact ⟨Except.ok.inj done, finished⟩
  unfold close at closed
  split at closed
  · obtain ⟨rfl, finished⟩ := ended _ closed
    exact ⟨rfl, finished⟩
  split at closed
  · cases closed
  · obtain ⟨rfl, finished⟩ := ended _ closed
    exact ⟨rfl, finished⟩

private theorem counted_eq (part : Except Fault (Nat × Capture)) :
    Prod.snd <$> (part >>= fun (count, capture) => .ok (count + 1, capture)) = Prod.snd <$> part := by
  cases part <;> rfl

private theorem finished_eq (count : Nat) (capture : Capture) :
    Prod.snd <$> (capture.finish >>= fun _ => .ok (count, capture)) = capture.finish >>= fun _ => .ok capture := by
  cases capture.finish <;> rfl

/-- A walk that has started adds all frames up to the next one that is not suspendable. -/
theorem walk_started_eq (started : capture.hasStarted = true) :
    Prod.snd <$> walk context capture frames =
      (frames.takeWhile (·.kind = .suspendable)).foldlM (add context) capture >>=
        close (frames.dropWhile (·.kind = .suspendable)) := by
  induction frames generalizing capture with
  | nil => exact finished_eq 0 capture
  | cons frame rest ih =>
    unfold walk
    simp only [started, Bool.not_true, Bool.false_and, Bool.false_eq_true, if_false]
    cases kind : frame.kind with
    | suspendable =>
      rw [List.takeWhile_cons_of_pos (by simp [kind]), List.dropWhile_cons_of_pos (by simp [kind]), List.foldlM_cons]
      cases added : capture.add context frame with
      | error => rfl
      | ok next => exact (counted_eq _).trans (ih (hasStarted_of_add added))
    | boundary =>
      rw [List.takeWhile_cons_of_neg (by simp [kind]), List.dropWhile_cons_of_neg (by simp [kind])]
      refine (finished_eq 1 capture).trans ?_
      change _ = capture.close (frame :: rest)
      rw [close, if_neg (by simp [kind])]
    | foreign =>
      rw [List.takeWhile_cons_of_neg (by simp [kind]), List.dropWhile_cons_of_neg (by simp [kind])]
      change _ = capture.close (frame :: rest)
      rw [close, if_pos kind]
      rfl

theorem walk_eq : Prod.snd <$> walk context {} frames = (suspended frames).foldlM (add context) {} >>=
    close ((frames.dropWhile (!·.starts)).dropWhile (·.kind = .suspendable)) := by
  induction frames with
  | nil => exact finished_eq 0 {}
  | cons frame rest ih =>
    unfold walk
    by_cases start : frame.starts = true
    · have kind : frame.kind = .suspendable := by
        simp only [LiveFrame.starts, Bool.and_eq_true, decide_eq_true_eq] at start
        exact start.1
      rw [if_neg (by simp [LiveFrame.starts] at start; simp [start])]
      simp only [kind]
      rw [suspended, List.dropWhile_cons_of_neg (by simp [start]), List.takeWhile_cons_of_pos (by simp [kind]),
        List.dropWhile_cons_of_pos (by simp [kind]), List.foldlM_cons]
      cases added : ({} : Capture).add context frame with
      | error => rfl
      | ok next => exact (counted_eq _).trans (walk_started_eq (hasStarted_of_add added))
    · have idle : (!({} : Capture).hasStarted && !(frame.kind = .suspendable && frame.holdsMark)) = true := by
        simp only [Bool.not_eq_true] at start
        change (!false && !frame.starts) = true
        rw [start]
        rfl
      rw [if_pos idle, suspended, List.dropWhile_cons_of_pos (by simpa using start)]
      exact (counted_eq _).trans ih

/-- A walk adds the suspended frames, and no pointer is left waiting. -/
theorem walk_spec (done : walk context {} frames = .ok (count, final)) :
    (suspended frames).foldlM (add context) {} = .ok final ∧ final.finish = .ok () := by
  have answered : Prod.snd <$> walk context {} frames = _ := walk_eq
  rw [done] at answered
  obtain ⟨last, added, closed⟩ := CallStacks.Failure.bind_eq_ok.mp answered.symm
  obtain ⟨rfl, finished⟩ := close_eq_ok closed
  exact ⟨added, finished⟩

/-- How the copy of a frame came about: from an image of its stack bytes with the saved registers laid
over, and from the references found in it. -/
structure Copying (context : CaptureContext) (earlier : List Shift) (frame : LiveFrame) (copy : Copied)
    (registers : List SavedRegister) (image : Buffer) (known : References) : Prop where
  extent : frame.extent context = .ok copy.frame.layout.recorded
  requirement : frame.requirement context = .ok copy.frame.layout.requirement
  returnOffset : frame.offsetOf frame.returnSlot = .ok copy.frame.layout.returnOffset
  saved : frame.saveRegisters Register.all (Buffer.copyOf (context.place earlier.length) context.memory
    frame.sp copy.frame.layout.recorded.toNat) = .ok (registers, image)
  recorded : (frame.references ++ SavedRegister.frameReferences registers).foldlM
    (References.record context earlier frame registers) { buffer := image } = .ok known
  delivery : frame.returns.delivery = .ok copy.frame.delivery
  built : copy.frame =
    { buffer := known.buffer
      layout :=
        { requirement := copy.frame.layout.requirement
          recorded := copy.frame.layout.recorded
          returnOffset := copy.frame.layout.returnOffset
          argBytes := frame.copiedArgs context
          objects := known.objects
          interiors := known.interiors
          reloads := SavedRegister.reloads registers }
      resumeAt := frame.pc
      delivery := copy.frame.delivery }
  shift : copy.shift = Shift.between frame.sp (context.place earlier.length)
    copy.frame.layout.recorded.toUInt64

theorem freeze_spec {earlier : List Shift} {copy : Copied} {places : List Nat}
    (done : freeze context earlier frame = .ok (copy, places)) :
    ∃ registers image known, Copying context earlier frame copy registers image known ∧
      places = known.waiting := by
  unfold freeze at done
  obtain ⟨size, extent, done⟩ := CallStacks.Failure.bind_eq_ok.mp done
  obtain ⟨requirement, required, done⟩ := CallStacks.Failure.bind_eq_ok.mp done
  obtain ⟨returnOffset, found, done⟩ := CallStacks.Failure.bind_eq_ok.mp done
  obtain ⟨⟨registers, image⟩, saved, done⟩ := CallStacks.Failure.bind_eq_ok.mp done
  dsimp only at done
  split at done
  · cases done
  obtain ⟨known, recorded, done⟩ := CallStacks.Failure.bind_eq_ok.mp done
  obtain ⟨delivery, delivered, done⟩ := CallStacks.Failure.bind_eq_ok.mp done
  cases done
  exact ⟨registers, image, known,
    ⟨extent, required, found, saved, recorded, insist_eq_ok.mp delivered, rfl, rfl⟩, rfl⟩

private theorem fresh_of_freeze {earlier : List Shift} {copy : Copied} {places : List Nat}
    (done : freeze context earlier frame = .ok (copy, places)) : copy.frame.Fresh := by
  obtain ⟨registers, image, known, frozen, _⟩ := freeze_spec done
  rw [frozen.built]
  exact ⟨rfl, rfl, rfl, rfl⟩

private theorem outline_of_mem_settle {waiting later : List Waiting} {copied moved : Array Copied} {copy : Copied}
    (done : settle shift waiting copied = .ok (later, moved)) (within : copy ∈ moved) :
    ∃ old ∈ copied, old.outline = copy.outline := by
  have shown : copy.outline ∈ moved.map Copied.outline := Array.mem_map_of_mem within
  rw [outlines_of_settle done] at shown
  exact Array.mem_map.mp shown

private theorem fresh_of_add (fresh : ∀ copy ∈ capture.copied, copy.frame.Fresh)
    (done : capture.add context frame = .ok final) : ∀ copy ∈ final.copied, copy.frame.Fresh := by
  obtain ⟨copy, places, frozen, settled⟩ := add_spec done
  intro other within
  obtain ⟨old, member, same⟩ := outline_of_mem_settle settled within
  have started : old.frame.Fresh := by
    rcases Array.mem_push.mp member with member | rfl
    · exact fresh old member
    · exact fresh_of_freeze frozen
  have views : old.frame.offBytes = other.frame.offBytes := congrArg Prod.fst same
  exact ⟨(congrArg FrozenFrame.caller views).symm.trans started.caller,
    (congrArg FrozenFrame.callee views).symm.trans started.callee,
    (congrArg FrozenFrame.ring views).symm.trans started.ring,
    (congrArg FrozenFrame.floor views).symm.trans started.floor⟩

theorem fresh_of_walk (done : walk context {} frames = .ok (count, final)) :
    ∀ frame ∈ final.frames, frame.Fresh := by
  have fresh : ∀ copy ∈ final.copied, copy.frame.Fresh := by
    apply CallStacks.Failure.foldlM_invariant (fun capture => ∀ copy ∈ capture.copied, copy.frame.Fresh)
      (walk_spec done).1 (by simp)
    exact fun _ _ _ _ holds added => fresh_of_add holds added
  intro frame within
  obtain ⟨copy, member, rfl⟩ := List.mem_map.mp within
  exact fresh copy (Array.mem_toList_iff.mp member)

end Capture
end CallStacks.Frozen
