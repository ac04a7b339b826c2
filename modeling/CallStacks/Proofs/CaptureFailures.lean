import CallStacks.Proofs.ArenaContents
import CallStacks.Proofs.CaptureRelocation
import CallStacks.Proofs.ChainInstall

/-! How a capture can fail. A frame whose extent is out of order is refused before anything is done with it. After
that the numbers that are worked with are in range, and what can still be amiss is what the walk has told of the frame;
for each of these faults there is a violation that names it. -/

namespace CallStacks.Frozen
open CallStacks.Failure (FailsAs)

variable {context : CaptureContext} {live : LiveFrame} {frames : List LiveFrame} {capture final : Capture}
  {earlier : List Shift} {fault : Fault}

/-- The bytes of a frame and its arguments, of which there may be a least number, have an extent: they end behind
where they start, inside the address space, and are not too many. -/
structure LiveFrame.Measured (live : LiveFrame) (least : UInt32) : Prop where
  ordered : live.sp ≤ live.callerSp
  ends : live.callerSp.toNat + max live.argBytes.toNat least.toNat < UInt64.size
  short : live.callerSp.toNat + max live.argBytes.toNat least.toNat - live.sp.toNat < UInt32.size

namespace LiveFrame

theorem toNat_copiedArgs (live : LiveFrame) (context : CaptureContext) :
    (live.copiedArgs context).toNat = max live.argBytes.toNat context.minArgBytes.toNat := by
  change (if live.argBytes ≤ context.minArgBytes then context.minArgBytes else live.argBytes).toNat = _
  split
  next less => exact (Nat.max_eq_right (UInt32.le_iff_toNat_le.mp less)).symm
  next more => exact (Nat.max_eq_left (UInt32.le_iff_toNat_le.mp (UInt32.le_of_lt (UInt32.not_le.mp more)))).symm

theorem measured_of_extent {size : UInt32} (extent : live.extent context = .ok size) :
    live.Measured context.minArgBytes := by
  obtain ⟨ordered, sum⟩ := extent_spec extent
  rw [toNat_copiedArgs] at sum
  have small : size.toNat < UInt32.size := size.toNat_lt
  unfold LiveFrame.extent at extent
  split at extent
  next => cases extent
  next stop added =>
    have ends := (Word.add?_eq_some_iff.mp added).1
    rw [UInt32.toNat_toUInt64, toNat_copiedArgs] at ends
    exact ⟨ordered, ends, by omega⟩

theorem extent_of_measured (measured : live.Measured context.minArgBytes) :
    ∃ size, live.extent context = .ok size := by
  obtain ⟨ordered, ends, short⟩ := measured
  rw [← toNat_copiedArgs] at ends short
  have added : Word.add? live.callerSp (live.copiedArgs context).toUInt64 =
      some (live.callerSp + (live.copiedArgs context).toUInt64) :=
    if_pos (by rw [UInt32.toNat_toUInt64]; exact ends)
  have stop := (Word.add?_eq_some_iff.mp added).2
  rw [UInt32.toNat_toUInt64] at stop
  have below : live.sp ≤ live.callerSp + (live.copiedArgs context).toUInt64 := by
    have := UInt64.le_iff_toNat_le.mp ordered
    rw [UInt64.le_iff_toNat_le]
    omega
  refine ⟨(live.callerSp + (live.copiedArgs context).toUInt64 - live.sp).toUInt32, ?_⟩
  simp only [extent, added]
  rw [if_pos ⟨ordered, by rw [UInt64.toNat_sub_of_le _ _ below, stop]; exact short⟩]

theorem extent_iff : (∃ size, live.extent context = .ok size) ↔ live.Measured context.minArgBytes :=
  ⟨fun ⟨_, extent⟩ => measured_of_extent extent, extent_of_measured⟩

private theorem stop_of_extent (failed : live.extent context = .error fault) :
    ∃ stop, fault = .violated (.unexpected (.invalidExtent live.sp stop)) := by
  unfold LiveFrame.extent at failed
  split at failed
  next =>
    cases failed
    exact ⟨_, rfl⟩
  next stop _ =>
    split at failed
    next => cases failed
    next =>
      cases failed
      exact ⟨stop, rfl⟩

theorem refused_iff : (∃ stop, live.extent context = .error (.violated (.unexpected (.invalidExtent live.sp stop)))) ↔
    ¬ live.Measured context.minArgBytes := by
  rw [← extent_iff]
  cases answer : live.extent context with
  | ok size => simp
  | error fault =>
    obtain ⟨stop, rfl⟩ := stop_of_extent answer
    simp

theorem requirement_of_extent {size : UInt32} (extent : live.extent context = .ok size) :
    ∃ need, live.requirement context = .ok need := by
  obtain ⟨ordered, sum⟩ := extent_spec extent
  have above := UInt64.le_iff_toNat_le.mp ordered
  have small := size.toNat_lt
  have body : (live.callerSp - live.sp).toUInt32.toNat = live.callerSp.toNat - live.sp.toNat := by
    rw [UInt64.toNat_toUInt32, UInt64.toNat_sub_of_le _ _ ordered]
    omega
  refine ⟨_, if_pos ?_⟩
  rw [body]
  change _ < 2 ^ 32
  omega

inductive Complaint (live : LiveFrame) : Fault → Prop
  | outside (offset width length : Nat) : Complaint live (.violated (.unexpected (.outOfBounds offset width length)))
  | unsupported : Complaint live (.violated (.unexpected .unsupportedReturn))
  | below (addr : Word) : Complaint live (.violated (.belowFrame addr live.sp))
  | pinned (location : Word) : Complaint live (.violated (.pinnedObject location))
  | unsaved (register : Register) : Complaint live (.violated (.unsavedReference register live.sp))
  | collecting (collects : live.collects = true) : Complaint live .collectingInCapture

inductive Rejected (live : LiveFrame) (least : UInt32) : Fault → Prop
  | extent (stop : Word) (unmeasured : ¬ live.Measured least) :
      Rejected live least (.violated (.unexpected (.invalidExtent live.sp stop)))
  | complaint {fault : Fault} (complaint : live.Complaint fault) : Rejected live least fault

private theorem extent_fails : FailsAs (live.Rejected context.minArgBytes) (live.extent context) := by
  intro fault failed
  obtain ⟨stop, rfl⟩ := stop_of_extent failed
  exact .extent stop (refused_iff.mp ⟨stop, failed⟩)

end LiveFrame

def Refusal.Outside (refusal : Refusal) : Prop := ∃ offset width length, refusal = .outOfBounds offset width length

namespace Buffer

variable (buffer : Buffer) (offset : Nat)

private theorem check_fails (width : Nat) : FailsAs Refusal.Outside (buffer.check offset width) := by
  unfold check
  split
  · exact .ok _
  · exact .error ⟨_, _, _, rfl⟩

private theorem read_fails : FailsAs Refusal.Outside (buffer.read offset) :=
  .bind (buffer.check_fails offset 8) fun _ => .ok _

private theorem writeBytes_fails (block : Array UInt8) : FailsAs Refusal.Outside (buffer.writeBytes offset block) :=
  .bind (buffer.check_fails offset block.size) fun _ => .ok _

private theorem relocate_fails (shift : Shift) : FailsAs Refusal.Outside (buffer.relocate offset shift) := by
  refine .bind (buffer.read_fails offset) fun word => ?_
  split
  · exact .bind (buffer.writeBytes_fails offset _) fun _ => .ok _
  · exact .ok _

end Buffer

namespace LiveFrame

private theorem insist_fails {α : Type} {part : Except Refusal α} (fails : FailsAs Refusal.Outside part)
    (live : LiveFrame) :
    FailsAs live.Complaint (insist part) := by
  cases part with
  | ok value => exact .ok value
  | error refusal =>
    obtain ⟨offset, width, length, rfl⟩ := fails refusal rfl
    exact .error (.outside offset width length)

private theorem offsetOf_fails (live : LiveFrame) (addr : Word) : FailsAs live.Complaint (live.offsetOf addr) := by
  unfold LiveFrame.offsetOf
  split
  · exact .ok _
  · exact .error (.below addr)

private theorem saveRegisters_fails (live : LiveFrame) (registers : List Register) (buffer : Buffer) :
    FailsAs live.Complaint (live.saveRegisters registers buffer) := by
  induction registers generalizing buffer with
  | nil => exact .ok _
  | cons register rest ih =>
    unfold LiveFrame.saveRegisters
    split
    · exact ih _
    split
    · refine .bind (live.offsetOf_fails _) fun offset => ?_
      exact .bind (insist_fails (buffer.writeBytes_fails _ _) live) fun _ => .bind (ih _) fun _ => .ok _
    · exact .bind (ih _) fun _ => .ok _

private theorem delivery_fails (live : LiveFrame) : FailsAs live.Complaint (insist live.returns.delivery) := by
  cases live.returns with
  | floatingPoint => exact .error .unsupported
  | returnBuffer => exact .ok _
  | primitive => exact .ok _
  | objectReference => exact .ok _
  | structWithReferences => exact .ok _

private theorem record_fails (live : LiveFrame) (registers : List SavedRegister) (known : References)
    (reference : Reference) :
    FailsAs live.Complaint (References.record context earlier live registers known reference) := by
  have placed : FailsAs live.Complaint (SavedRegister.offsetOf registers live reference.location) := by
    unfold SavedRegister.offsetOf
    split
    · exact .ok _
    · exact .error (.unsaved _)
    · exact live.offsetOf_fails _
  unfold References.record
  dsimp only
  split
  · exact .error (.pinned _)
  refine .bind placed fun offset => ?_
  split
  · exact .ok _
  refine .bind (insist_fails (known.buffer.read_fails _) live) fun target => ?_
  split
  · exact .ok _
  split
  · exact .bind (insist_fails (known.buffer.writeBytes_fails _ _) live) fun _ => .ok _
  · exact .ok _

end LiveFrame

namespace Capture

private theorem freeze_fails (earlier : List Shift) (live : LiveFrame) :
    FailsAs (live.Rejected context.minArgBytes) (freeze context earlier live) := by
  have rejected : ∀ fault, live.Complaint fault → live.Rejected context.minArgBytes fault := fun _ => .complaint
  unfold freeze
  refine .bind_ran LiveFrame.extent_fails fun size extent => ?_
  obtain ⟨need, required⟩ := LiveFrame.requirement_of_extent extent
  rw [required]
  refine .bind (.ok need) fun _ => .bind ((live.offsetOf_fails _).mono rejected) fun _ => ?_
  refine .bind ((live.saveRegisters_fails _ _).mono rejected) fun (registers, buffer) => ?_
  dsimp only
  split
  next collects => exact .error (.complaint (.collecting collects))
  next =>
    refine .bind (FailsAs.mono ?_ rejected) fun _ => .bind (live.delivery_fails.mono rejected) fun _ => .ok _
    exact .foldlM fun known reference => live.record_fails registers known reference

private theorem settle_fails (live : LiveFrame) (shift : Shift) {waiting : List Waiting} {copied : Array Copied}
    (known : ∀ pointer ∈ waiting, pointer.frame < copied.size) :
    FailsAs live.Complaint (settle shift waiting copied) := by
  induction waiting generalizing copied with
  | nil => exact .ok _
  | cons pointer rest ih =>
    obtain ⟨inside, others⟩ := List.forall_mem_cons.mp known
    unfold settle
    split
    next missing => exact absurd (Array.getElem?_eq_none_iff.mp missing) (Nat.not_le_of_lt inside)
    next owner held =>
      refine .bind (LiveFrame.insist_fails (owner.frame.buffer.relocate_fails _ _) live) fun (buffer, moved) => ?_
      exact .bind (ih (by simpa using others)) fun _ => .ok _

def Indexed (capture : Capture) : Prop := ∀ pointer ∈ capture.waiting, pointer.frame < capture.copied.size

theorem Indexed.pushed (indexed : capture.Indexed) (copy : Copied) (places : List Nat) :
    ∀ pointer ∈ capture.waiting ++ places.map (⟨capture.copied.size, ·⟩),
      pointer.frame < (capture.copied.push copy).size := by
  intro pointer within
  rw [Array.size_push]
  rcases List.mem_append.mp within with old | new
  · exact Nat.lt_succ_of_lt (indexed pointer old)
  · obtain ⟨place, _, rfl⟩ := List.mem_map.mp new
    exact Nat.lt_succ_self _

theorem Indexed.add (indexed : capture.Indexed) (done : capture.add context live = .ok final) : final.Indexed := by
  obtain ⟨copy, places, _, settled⟩ := add_spec done
  have sizes := congrArg Array.size (outlines_of_settle settled)
  simp only [Array.size_map] at sizes
  intro pointer within
  rw [sizes]
  exact indexed.pushed copy places pointer ((sublist_of_settle settled).subset within)

private theorem add_fails (indexed : capture.Indexed) (live : LiveFrame) :
    FailsAs (live.Rejected context.minArgBytes) (capture.add context live) := by
  refine .bind (freeze_fails _ live) fun (copy, places) => ?_
  exact .bind ((settle_fails live _ (indexed.pushed copy places)).mono fun _ => .complaint) fun _ => .ok _

theorem adds_fail : FailsAs (fun fault => ∃ live ∈ frames, live.Rejected context.minArgBytes fault)
    (frames.foldlM (add context) {}) := by
  refine .foldlM_kept Indexed (by simp [Indexed]) (fun _ _ _ _ indexed done => indexed.add done) ?_
  exact fun live within _ indexed => (add_fails indexed live).mono fun _ rejected => ⟨live, within, rejected⟩

/-- What can be amiss with a walk: one of the suspended frames, or how the run ends. -/
inductive Refused (context : CaptureContext) (frames : List LiveFrame) : Fault → Prop
  | rejected {live : LiveFrame} {fault : Fault} (within : live ∈ suspended frames)
      (rejected : live.Rejected context.minArgBytes fault) : Refused context frames fault
  | stray (sp : Word) : Refused context frames (.violated (.strayFrame sp))
  | escaping (count : Nat) : Refused context frames (.violated (.escaping count))

private theorem finish_fails (capture : Capture) : FailsAs (Refused context frames) capture.finish := by
  unfold finish
  split
  · exact .ok _
  · exact .error (.escaping _)

private theorem close_fails (rest : List LiveFrame) (capture : Capture) :
    FailsAs (Refused context frames) (capture.close rest) := by
  unfold close
  split
  · exact .bind (capture.finish_fails) fun _ => .ok _
  · split
    · exact .error (.stray _)
    · exact .bind (capture.finish_fails) fun _ => .ok _

theorem walk_fails : FailsAs (Refused context frames) (walk context {} frames) := by
  intro fault failed
  have answered : Prod.snd <$> walk context {} frames = _ := walk_eq
  rw [failed] at answered
  rcases CallStacks.Failure.bind_eq_error.mp answered.symm with failed | ⟨final, _, closed⟩
  · obtain ⟨live, within, rejected⟩ := adds_fail fault failed
    exact .rejected within rejected
  · exact close_fails _ _ fault closed

end Capture

namespace Store

variable {store final : Store} {frozen : List FrozenFrame} {failure : Failure}

private theorem insert_failure {frame : FrozenFrame} (sound : store.arena.Sound)
    (failed : StoreM.insert frame store = .error failure final) : failure = .stopped (.violated .arenaFull) := by
  unfold StoreM.insert at failed
  rcases EStateM.bind_eq_error.mp failed with failed | ⟨_, _, _, failed⟩
  · obtain ⟨asked, rfl⟩ := StoreM.ask_eq_error.mp failed
    cases answer : store.arena.insert frame with
    | ok given =>
      rw [answer] at asked
      cases asked
    | error fault =>
      rw [answer, (sound.insert_error answer).1] at asked
      cases asked
      rfl
  · rcases EStateM.bind_eq_error.mp failed with failed | ⟨_, _, _, failed⟩
    · exact (EStateM.modify_eq_error.mp failed).elim
    · exact (EStateM.pure_eq_error.mp failed).elim

private theorem mapM_insert_failure (sound : store.arena.Sound)
    (failed : frozen.mapM StoreM.insert store = .error failure final) : failure = .stopped (.violated .arenaFull) := by
  induction frozen generalizing store with
  | nil => exact (EStateM.pure_eq_error.mp failed).elim
  | cons frame rest ih =>
    rw [List.mapM_cons] at failed
    rcases EStateM.bind_eq_error.mp failed with failed | ⟨handle, middle, inserted, failed⟩
    · exact insert_failure sound failed
    · rcases EStateM.bind_eq_error.mp failed with failed | ⟨_, _, _, failed⟩
      · exact ih ((insert_spec inserted).sound sound) failed
      · exact (EStateM.pure_eq_error.mp failed).elim

/-- Frames that have been copied are put into the store unless that is full. -/
theorem install_failure (sound : store.arena.Sound) (fresh : ∀ frame ∈ frozen, frame.Fresh)
    (failed : StoreM.install frozen store = .error failure final) : failure = .stopped (.violated .arenaFull) := by
  obtain ⟨cause, broken, rfl⟩ := StoreM.insisting_eq_error.mp failed
  rcases EStateM.bind_eq_error.mp broken with failed | ⟨handles, middle, put, failed⟩
  · rw [mapM_insert_failure sound failed]
    rfl
  -- The new handles are on no chain yet, so joining them cannot fail.
  have inserted := mapM_insert_spec put
  have alone : ∀ handle ∈ handles, middle.chainEnds handle = some ⟨none, none⟩ := fun handle within => by
    obtain ⟨frame, member, held⟩ := held_of_mem inserted.held within
    simp [chainEnds, held, (fresh frame member).callee, (fresh frame member).caller]
  rcases EStateM.bind_eq_error.mp failed with failed | ⟨_, _, _, failed⟩
  · cases handles with
    | nil => exact (EStateM.pure_eq_error.mp failed).elim
    | cons first rest =>
      obtain ⟨last, ran, _⟩ := joinAll_run
        (show Threaded middle.chainEnds ([] ++ [first]) from .singleton (alone first (by simp)))
        inserted.distinct fun other within => alone other (by simp [within])
      rw [ran] at failed
      cases failed
  · exact (EStateM.pure_eq_error.mp failed).elim

end Store
end CallStacks.Frozen
