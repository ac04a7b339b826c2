import CallStacks.Proofs.CaptureSelection
import CallStacks.Proofs.RosterRefinement

/-! What a capture reckons with. The numbers that a walk gives can be any. The extent of a frame is checked before it
is used, and a place in the frame is told by its distance from the stack pointer only if that is small enough. So no
sum leaves its range and no number is cut short: what stops a capture has a name, and what it freezes has the measures
of the frame. Such a frame can be put back wherever its return address has a place. -/

namespace CallStacks.Frozen

variable {context : CaptureContext} {live : LiveFrame} {frames : List LiveFrame} {frozen old new : FrozenFrame}

namespace LiveFrame

/-- The registers that the frame has saved, with their distances, and the end tag. -/
def reloads (live : LiveFrame) : List Reload :=
  Register.all.filterMap (fun register =>
    (live.saved? register).map fun slots => ⟨.saved register, live.distance slots.callerLocation⟩) ++
      [⟨if (live.saved? .rbp).isSome then .lastWithFramePointer else .lastWithoutFramePointer, 0⟩]

private theorem any_isFramePointer (live : LiveFrame) :
    (Register.all.filterMap live.noted?).any SavedRegister.isFramePointer = (live.saved? .rbp).isSome := by
  rw [Bool.eq_iff_iff, List.any_eq_true, Option.isSome_iff_exists]
  constructor
  · rintro ⟨⟨register, slots, offset⟩, within, framePointer⟩
    simp only [SavedRegister.isFramePointer, Bool.and_eq_true, decide_eq_true_eq] at framePointer
    obtain ⟨rfl, some⟩ := framePointer
    obtain ⟨place, rfl⟩ := Option.isSome_iff_exists.mp some
    exact ⟨slots, (saved_of_entry within).2.1⟩
  · rintro ⟨slots, held⟩
    exact ⟨_, entry_of_saved held, rfl⟩

private theorem reloads_noted (live : LiveFrame) :
    SavedRegister.reloads (Register.all.filterMap live.noted?) = live.reloads := by
  rw [SavedRegister.reloads, any_isFramePointer, List.filterMap_filterMap, reloads]
  congr 2
  funext register
  unfold noted? saved?
  cases has : live.registers register with
  | none => rfl
  | some slots => cases isSaved : slots.isSaved <;> simp [isSaved, Option.filter_some]

private theorem add_of_offsetOf {addr : Word} {offset : UInt32} (found : live.offsetOf addr = .ok offset) :
    live.sp.toNat + offset.toNat = addr.toNat := by
  have distance := toNat_of_offsetOf found
  unfold offsetOf at found
  split at found
  next bounds =>
    rw [distance, UInt64.toNat_sub_of_le _ _ bounds.1]
    exact Nat.add_sub_cancel' (UInt64.le_iff_toNat_le.mp bounds.1)
  next => cases found

structure MeasuredAs (live : LiveFrame) (least : UInt32) (frozen : FrozenFrame) : Prop extends frozen.Trimmed where
  size : frozen.buffer.size = live.callerSp.toNat - live.sp.toNat + max live.argBytes.toNat least.toNat
  argBytes : frozen.layout.argBytes.toNat = max live.argBytes.toNat least.toNat
  returnOffset : live.sp.toNat + frozen.layout.returnOffset.toNat = live.returnSlot.toNat
  registers : frozen.layout.reloads = live.reloads
  slots : ∀ register slots, live.saved? register = some slots →
    live.sp.toNat + (live.distance slots.callerLocation).toNat = slots.callerLocation.toNat

theorem MeasuredAs.of_settled {least : UInt32} (measured : live.MeasuredAs least old)
    (layout : new.layout = old.layout) (size : new.buffer.size = old.buffer.size) : live.MeasuredAs least new where
  toTrimmed := measured.toTrimmed.of_settled layout size
  size := size.trans measured.size
  argBytes := layout ▸ measured.argBytes
  returnOffset := layout ▸ measured.returnOffset
  registers := layout ▸ measured.registers
  slots := measured.slots

end LiveFrame

namespace Capture

variable {earlier later : List Shift} {places : List Nat} {copy : Copied} {registers : List SavedRegister}
  {image : Buffer} {known : References} {fault : Fault}

theorem Copying.measuredAs (copying : Copying context earlier live copy registers image known) :
    live.MeasuredAs context.minArgBytes copy.frame := by
  obtain ⟨trimmed, _⟩ := copying.trimmed
  obtain ⟨entries, saved⟩ := LiveFrame.saveRegisters_entries copying.saved
  refine ⟨trimmed, ?size, ?argBytes, LiveFrame.add_of_offsetOf copying.returnOffset, ?registers, ?slots⟩
  case size =>
    obtain ⟨ordered, sum⟩ := LiveFrame.extent_spec copying.extent
    have below := UInt64.le_iff_toNat_le.mp ordered
    rw [trimmed.recorded, LiveFrame.toNat_copiedArgs] at sum
    omega
  case argBytes =>
    rw [copying.built]
    exact live.toNat_copiedArgs context
  case registers =>
    rw [copying.built, entries]
    exact live.reloads_noted
  case slots =>
    intro register slots held
    exact LiveFrame.add_of_offsetOf (saved register register.mem_all slots held).1

theorem Traced.measuredAs (traced : Traced context earlier later places live copy) :
    live.MeasuredAs context.minArgBytes copy.frame := by
  obtain ⟨first, registers, image, known, copying, outline, _, size, _⟩ := traced
  exact copying.measuredAs.of_settled (Copied.layout_of_outline outline) (size.trans copying.trimmed.2.symm)

theorem Traced.measured (traced : Traced context earlier later places live copy) : live.Measured context.minArgBytes :=
  LiveFrame.measured_of_extent traced.extent.1

/-- A fault that has a name: a violation, which speaks of an extent only if a frame has none, or the collector running
while a frame tells its references. -/
inductive Named (context : CaptureContext) (frames : List LiveFrame) : Fault → Prop
  | violated (violation : Violation) (apt : ∀ sp stop, violation = .unexpected (.invalidExtent sp stop) →
      ∃ live ∈ suspended frames, live.sp = sp ∧ ¬ live.Measured context.minArgBytes) :
      Named context frames (.violated violation)
  | collecting {live : LiveFrame} (within : live ∈ suspended frames) (collects : live.collects = true) :
      Named context frames .collectingInCapture

theorem Refused.named (refused : Refused context frames fault) : Named context frames fault := by
  cases refused with
  | stray | escaping => exact .violated _ fun _ _ same => by cases same
  | @rejected live _ within rejected =>
    cases rejected with
    | extent stop unmeasured =>
      refine .violated _ fun sp stop' same => ?_
      cases same
      exact ⟨live, within, rfl, unmeasured⟩
    | complaint complaint =>
      cases complaint with
      | collecting collects => exact .collecting within collects
      | outside | unsupported | below | pinned | unsaved => exact .violated _ fun _ _ same => by cases same

end Capture

theorem FrozenFrame.splice_overflow (value : ResumeValue) (landing : Landing) (memory : Memory)
    (beyond : UInt64.size ≤ landing.sp.toNat + frozen.layout.returnOffset.toNat) :
    frozen.splice value landing memory = .error .overflow := by
  have none : Word.add? landing.sp frozen.layout.returnOffset.toUInt64 = none :=
    if_neg (by simpa using beyond)
  unfold FrozenFrame.splice
  simp only [none, CallStacks.Failure.ofOption, bind, Except.bind]

namespace Freezer
open Store

variable {freezer after : Freezer} {roster : Roster} {memory : Memory} {place : Nat → Word} {limit : Word}
  {failure : Failure} {handle : Handle}

/-- A capture is stopped by what is amiss with its walk, or by a full arena. -/
theorem capture_failure (valid : Valid freezer.store roster)
    (failed : freezer.capture memory place frames limit = .error failure) :
    ∃ fault, failure = .stopped fault ∧ Capture.Named (freezer.contextOf memory place limit) frames fault := by
  unfold Freezer.capture at failed
  rcases CallStacks.Failure.bind_eq_error.mp failed with stopped | ⟨⟨count, final⟩, walked, failed⟩
  · obtain ⟨fault, walked, rfl⟩ := CallStacks.Failure.ofStop_eq_error.mp stopped
    exact ⟨fault, rfl, (Capture.walk_fails fault walked).named⟩
  have fresh := Capture.fresh_of_walk (CallStacks.Failure.ofStop_eq_ok.mp walked)
  rcases CallStacks.Failure.bind_eq_error.mp failed with stopped | ⟨⟨made, _⟩, _, failed⟩
  · obtain ⟨cause, last, installed, rfl⟩ := run_eq_error.mp stopped
    rw [install_failure valid.sound fresh installed]
    exact ⟨_, rfl, .violated _ fun _ _ same => by cases same⟩
  · cases made <;> cases failed

/-- All that can keep a frame from being resumed is that its return address has no place. -/
theorem resume_overflow (reachable : Reachable freezer) (value : ResumeValue) (landing : Landing) (memory : Memory)
    (live : freezer.store.arena.find? handle = some frozen)
    (beyond : UInt64.size ≤ landing.sp.toNat + frozen.layout.returnOffset.toNat) :
    freezer.resume handle value landing memory = .error (.stopped .overflow) := by
  obtain ⟨removed, final, prepared, layout⟩ := prepare_live reachable landing.sp live
  have spliced := FrozenFrame.splice_overflow value landing memory (layout ▸ beyond)
  unfold Freezer.resume
  rw [run_eq_ok.mpr ⟨final, prepared, rfl⟩]
  simp only [spliced, CallStacks.Failure.ofStop, bind, Except.bind]

/-- A capture returns or stops at a fault that has a name, and not at an extent that is in order. What it returns are
copies with the measures of their frames. A frame that is frozen can be resumed, so its reload list has an end and its
interior pointers lie in its buffer; only its return address may have no place. -/
theorem Reachable.capture_measured (reachable : Reachable freezer) (memory : Memory) (place : Nat → Word)
    (frames : List LiveFrame) (limit : Word) :
    (∀ failure, freezer.capture memory place frames limit = .error failure →
      ∃ fault, failure = .stopped fault ∧ Capture.Named (freezer.contextOf memory place limit) frames fault) ∧
    (∀ live : LiveFrame,
      ((∃ size, live.extent (freezer.contextOf memory place limit) = .ok size) ↔
        live.Measured freezer.settings.minArgBytes) ∧
      ((∃ stop, live.extent (freezer.contextOf memory place limit) =
          .error (.violated (.unexpected (.invalidExtent live.sp stop)))) ↔
        ¬ live.Measured freezer.settings.minArgBytes)) ∧
    (∀ visited answer after, freezer.capture memory place frames limit = .ok ((visited, answer), after) →
      (∀ live ∈ suspended frames, live.Measured freezer.settings.minArgBytes) ∧
      ∃ handles, answer = Chain.of? handles ∧
        (∀ chain, answer = some chain → after.chainMembers chain.head = .ok handles.reverse) ∧
        List.Forall₂ (fun handle live => ∃ frozen, after.frame handle = .ok frozen ∧
          live.MeasuredAs freezer.settings.minArgBytes frozen) handles (suspended frames)) ∧
    ∀ handle frozen, freezer.frame handle = .ok frozen → ∀ value landing memory,
      if landing.sp.toNat + frozen.layout.returnOffset.toNat < UInt64.size then
        ∃ answer, freezer.resume handle value landing memory = .ok answer
      else freezer.resume handle value landing memory = .error (.stopped .overflow) := by
  obtain ⟨roster, _, valid⟩ := reachable.history
  refine ⟨fun failure failed => capture_failure valid failed, fun live => ⟨LiveFrame.extent_iff, LiveFrame.refused_iff⟩,
    fun visited answer after done => ?_, fun handle frozen held value landing memory => ?_⟩
  · obtain ⟨_, handles, walked, yields⟩ := yields_of_capture valid done
    have held : List.Forall₂ (fun live handle => live.Measured freezer.settings.minArgBytes ∧
        ∃ frozen, after.frame handle = .ok frozen ∧ live.MeasuredAs freezer.settings.minArgBytes frozen)
        (suspended frames) handles := by
      refine yields.held.flip.imp ?_
      rintro live handle ⟨frozen, copy, earlier, later, known, same, traced⟩
      have layout : frozen.offChain.layout = copy.frame.offChain.layout := congrArg FrozenFrame.layout same
      have size : frozen.offChain.buffer.size = copy.frame.offChain.buffer.size := congrArg (·.buffer.size) same
      exact ⟨traced.measured, frozen, known, traced.measuredAs.of_settled layout size⟩
    obtain ⟨measured, held⟩ := (List.forall₂_and_left _ _).mp held
    exact ⟨measured, handles, yields.named, yields.members, held.flip⟩
  · have live := StoreM.frame_eq_ok.mp held
    split
    next room => exact resume_run reachable value landing memory live room
    next beyond => exact resume_overflow reachable value landing memory live (Nat.le_of_not_lt beyond)

/-- A frame near the end of the address space. With sixteen more bytes of arguments it would reach the end. -/
def topFrame : LiveFrame :=
  { holdsMark := true
    sp := 0xFFFFFFFFFFFFFFC0
    callerSp := 0xFFFFFFFFFFFFFFE8
    argBytes := 8
    returnSlot := 0xFFFFFFFFFFFFFFE0
    registers := fun
      | .rbx => some ⟨0xFFFFFFFFFFFFFFC8, 0x9000, 0x77⟩
      | .rbp => some ⟨0xFFFFFFFFFFFFFFD0, 0x9008, 0x88⟩
      | _ => none }

theorem Reachable.capture_measured_top : ∃ visited chain after frozen,
    capture {} .blank (fun _ => 0x8000) [topFrame] 0 = .ok ((visited, some chain), after) ∧
      after.frame chain.head = .ok frozen ∧ topFrame.Measured 0 ∧ topFrame.MeasuredAs 0 frozen ∧
      frozen.buffer.size = 0x30 ∧
      frozen.layout.reloads = [⟨.saved .rbx, 8⟩, ⟨.saved .rbp, 16⟩, ⟨.lastWithFramePointer, 0⟩] ∧
      ∃ stop, { topFrame with argBytes := 24 }.extent (contextOf {} .blank (fun _ => 0x8000) 0) =
        .error (.violated (.unexpected (.invalidExtent 0xFFFFFFFFFFFFFFC0 stop))) := by
  obtain ⟨_, extents, measures, _⟩ :=
    (Reachable.fresh {}).capture_measured .blank (fun _ => 0x8000) [topFrame] 0
  have answered : (·.1.2) <$> capture {} .blank (fun _ => 0x8000) [topFrame] 0 = .ok (some ⟨⟨0, 0⟩, ⟨0, 0⟩, 1⟩) := by
    decide +kernel
  obtain ⟨⟨⟨visited, answer⟩, after⟩, done, same⟩ := CallStacks.Failure.map_eq_ok.mp answered
  obtain rfl : answer = some ⟨⟨0, 0⟩, ⟨0, 0⟩, 1⟩ := same
  obtain ⟨measured, handles, named, _, held⟩ := measures _ _ _ done
  rw [show suspended [topFrame] = [topFrame] from rfl] at measured held
  cases held with | cons first rest =>
  cases rest
  obtain ⟨frozen, known, as⟩ := first
  obtain rfl := congrArg Chain.head (Option.some.inj named)
  refine ⟨visited, _, after, frozen, done, known, measured topFrame (by simp), as, as.size.trans (by decide), ?_, ?_⟩
  · exact as.registers.trans (by decide)
  · exact (extents { topFrame with argBytes := 24 }).2.mpr fun measured => absurd measured.ends (by decide)

end Freezer
end CallStacks.Frozen
