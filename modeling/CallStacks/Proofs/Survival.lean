import CallStacks.Proofs.Reachability

/-! Frames that stay. While a frame is in the store its bytes, its floor and its neighbours may change,
but what was settled when it was frozen stays, and a frame that has become active stays active. -/

namespace CallStacks.Frozen

namespace FrozenFrame

/-- What is settled when a frame is frozen. -/
def settled (frame : FrozenFrame) : Word × Nat × Layout × Word × Delivery :=
  (frame.buffer.base, frame.buffer.size, frame.layout, frame.resumeAt, frame.delivery)

/-- How a frame may have changed while it stayed. -/
structure Endures (old new : FrozenFrame) : Prop where
  settled : new.settled = old.settled
  active : old.floor.isActive → new.floor.isActive

variable {old middle new : FrozenFrame}

theorem Endures.refl (frame : FrozenFrame) : frame.Endures frame := ⟨rfl, id⟩

theorem Endures.trans (first : old.Endures middle) (second : middle.Endures new) : old.Endures new :=
  ⟨second.settled.trans first.settled, second.active ∘ first.active⟩

theorem Endures.of_eq (settled : new.settled = old.settled) (floor : new.floor = old.floor) :
    old.Endures new := ⟨settled, fun active => floor ▸ active⟩

theorem Endures.layout (endures : old.Endures new) : new.layout = old.layout :=
  congrArg (·.2.2.1) endures.settled

theorem Endures.size (endures : old.Endures new) : new.buffer.size = old.buffer.size :=
  congrArg (·.2.1) endures.settled

private theorem endures_lowered (frame : FrozenFrame) (floor : Generation) :
    frame.Endures { frame with floor := min frame.floor floor } := by
  refine ⟨rfl, fun active => ?_⟩
  simp only [Generation.isActive, decide_eq_true_eq] at active ⊢
  exact Int.lt_of_le_of_lt (Int.min_le_left _ _) active

private theorem endures_of_aged {oldest raised : Generation} (aged : old.floor.aged oldest = .ok raised) :
    old.Endures { old with floor := raised } := by
  refine ⟨rfl, fun active => ?_⟩
  rw [Generation.aged_of_active active] at aged
  exact Except.ok.inj aged ▸ active

theorem endures_of_relocate {offset : UInt32} {shift : Shift} (done : old.relocate offset shift = .ok new) :
    old.Endures new := by
  unfold FrozenFrame.relocate at done
  obtain ⟨place, _, done⟩ := CallStacks.Failure.bind_eq_ok.mp done
  obtain ⟨⟨buffer, flag⟩, relocated, done⟩ := CallStacks.Failure.bind_eq_ok.mp done
  cases done
  have moved := Buffer.relocate_spec relocated
  exact .of_eq (by simp only [settled, moved.base, moved.size]) rfl

end FrozenFrame

namespace Store

variable {store middle final : Store} {handle : Handle} {frame : FrozenFrame}

/-- Every frame that is left was there before, and has endured. -/
def Endures (store final : Store) : Prop :=
  ∀ handle frame, final.arena.find? handle = some frame →
    ∃ old, store.arena.find? handle = some old ∧ old.Endures frame

namespace Endures

private theorem refl (store : Store) : Endures store store := fun _ frame live => ⟨frame, live, .refl frame⟩

private theorem trans (first : Endures store middle) (second : Endures middle final) : Endures store final := by
  intro handle frame live
  obtain ⟨between, held, later⟩ := second handle frame live
  obtain ⟨old, known, earlier⟩ := first handle between held
  exact ⟨old, known, earlier.trans later⟩

private theorem setFrame (live : store.arena.find? handle = some frame) {changed : FrozenFrame}
    (endures : frame.Endures changed) : Endures store (store.setFrame handle changed) := by
  intro other now held
  rw [find?_setFrame live] at held
  split at held
  next here =>
    cases held
    exact ⟨frame, here ▸ live, endures⟩
  next => exact ⟨now, held, .refl now⟩

end Endures

theorem Agrees.endures {β : Type} {view : FrozenFrame → β} (agrees : Agrees view store final)
    (fine : ∀ old new : FrozenFrame, view new = view old → old.Endures new) : Endures store final := by
  intro handle frame live
  obtain ⟨old, known, same⟩ := agrees.backward live
  exact ⟨old, known, fine old frame same⟩

theorem Agrees.endures_offRing (agrees : Agrees FrozenFrame.offRing store final) : Endures store final :=
  agrees.endures fun old new same => by
    have settled : new.offRing.settled = old.offRing.settled := congrArg FrozenFrame.settled same
    have floor : new.offRing.floor = old.offRing.floor := congrArg FrozenFrame.floor same
    exact .of_eq settled floor

theorem Agrees.endures_offChain (agrees : Agrees FrozenFrame.offChain store final) : Endures store final :=
  agrees.endures fun old new same => by
    have settled : new.offChain.settled = old.offChain.settled := congrArg FrozenFrame.settled same
    have floor : new.offChain.floor = old.offChain.floor := congrArg FrozenFrame.floor same
    exact .of_eq settled floor

end Store

namespace StoreM
open Store

variable {α : Type}

abbrev Enduring (operation : StoreM α) : Prop := Respects Endures operation

private theorem changeFrame_enduring (handle : Handle) {change : FrozenFrame → FrozenFrame}
    (endures : ∀ frame : FrozenFrame, frame.Endures (change frame)) : Enduring (changeFrame handle change) := by
  intro store answer final done
  obtain ⟨frame, live, rfl⟩ := changeFrame_eq_ok.mp done
  exact .setFrame live (endures frame)

private theorem tryFrame_enduring (handle : Handle) {change : FrozenFrame → Except Failure FrozenFrame}
    (endures : ∀ frame changed : FrozenFrame, change frame = .ok changed → frame.Endures changed) :
    Enduring (tryFrame handle change) := by
  intro store answer final done
  obtain ⟨frame, changed, live, ok, rfl⟩ := tryFrame_eq_ok.mp done
  exact .setFrame live (endures frame changed ok)

private theorem takeOut_enduring (handle : Handle) : Enduring (takeOut handle) := by
  intro store answer final done
  obtain ⟨arena, gone, rfl⟩ := takeOut_eq_ok.mp done
  intro other frame live
  rw [Arena.find?_remove gone] at live
  split at live
  · cases live
  · exact ⟨frame, live, .refl frame⟩

private theorem detach_enduring (handle : Handle) : Enduring (detach handle) := by
  unfold detach
  refine .bind Endures.trans (.ask Endures.refl _) fun frame => ?_
  refine .bind Endures.trans (fun store answer final done => ?_) fun _ => ?_
  · exact (bypass_undisturbed frame store answer final done).toAgrees.endures_offChain
  refine .bind Endures.trans ?_ fun _ => ?_
  · unfold passFloor
    split
    · unfold takeOver
      refine .bind Endures.trans (.ask Endures.refl _) fun floor => changeFrame_enduring _ fun frame => ?_
      exact frame.endures_lowered floor
    · exact .pure Endures.refl _
  refine .bind Endures.trans (fun store answer final done => ?_) fun _ => takeOut_enduring handle
  exact (leaveRing_agrees handle frame store answer final done).endures_offRing

private theorem relocateInteriors_enduring (shift : Shift) (member : Handle × FrozenFrame) :
    Enduring (relocateInteriors shift member) := by
  refine .forM Endures.refl Endures.trans member.2.layout.interiors fun slot _ => ?_
  apply tryFrame_enduring
  intro frame changed moved
  exact FrozenFrame.endures_of_relocate (CallStacks.Failure.ofRefusal_eq_ok.mp moved)

private theorem prepare_enduring (handle : Handle) (sp : Word) : Enduring (prepare handle sp) := by
  unfold prepare
  refine .bind Endures.trans (.ask Endures.refl _) fun head => ?_
  refine .bind Endures.trans (.ask Endures.refl _) fun members => ?_
  refine .bind Endures.trans (.ask Endures.refl _) fun frame => ?_
  refine .bind Endures.trans (relocateInteriors_enduring _ _) fun _ => ?_
  refine .bind Endures.trans ?_ fun callers => ?_
  · unfold callersOf
    cases frame.caller with
    | none => exact .pure Endures.refl _
    | some caller => exact .ask Endures.refl _
  refine .bind Endures.trans
    (.forM Endures.refl Endures.trans callers fun member _ => relocateInteriors_enduring _ member) fun _ => ?_
  dsimp only
  split
  · refine .bind Endures.trans (.forM Endures.refl Endures.trans members fun member _ => ?_)
      fun _ => detach_enduring handle
    exact changeFrame_enduring _ fun frame => ⟨rfl, fun _ => rfl⟩
  · exact detach_enduring handle

private theorem ageChain_enduring (condemned oldest : Generation) (count : Nat) (head : Handle) :
    Enduring (ageChain condemned oldest count head) := by
  unfold ageChain
  refine .bind Endures.trans (.ask Endures.refl _) fun frame => ?_
  split
  · exact .pure Endures.refl _
  refine .bind Endures.trans (.ask Endures.refl _) fun members => ?_
  refine .bind Endures.trans (.forM Endures.refl Endures.trans members fun member _ => ?_)
    fun _ => .pure Endures.refl _
  apply tryFrame_enduring
  intro frame changed aged
  obtain ⟨raised, rose, same⟩ := CallStacks.Failure.bind_eq_ok.mp aged
  cases same
  exact FrozenFrame.endures_of_aged (CallStacks.Failure.ofStop_eq_ok.mp rose)

private theorem age_enduring (condemned oldest : Generation) : Enduring (age condemned oldest) := by
  apply Respects.insisting
  refine .bind Endures.trans (.ask Endures.refl _) fun heads => ?_
  exact .foldlM Endures.refl Endures.trans heads 0 fun head _ count => ageChain_enduring condemned oldest count head

end StoreM

namespace Visitor
open Store

variable {σ : Type} {visit : Visitor σ}

theorem size_of_slot {owner : Handle} {layout : Layout} {root : Root} {buffer after : Buffer} {state last : σ}
    (done : visit.slot owner layout root buffer state = .ok (after, last)) : after.size = buffer.size := by
  unfold slot at done
  obtain ⟨place, _, done⟩ := CallStacks.Failure.bind_eq_ok.mp done
  obtain ⟨value, _, done⟩ := CallStacks.Failure.bind_eq_ok.mp done
  split at done
  · obtain ⟨written, wrote, done⟩ := CallStacks.Failure.bind_eq_ok.mp done
    obtain ⟨_, rfl⟩ := (Buffer.writeBytes_eq_ok_iff _ _ _ _).mp wrote
    cases done
    exact Buffer.size_overlay _ _ _
  · cases done
    rfl

/-- Whatever the visitor puts into the slots, the buffer keeps its size. -/
theorem size_of_run {owner : Handle} {layout : Layout} {roots : List Root} {buffer after : Buffer}
    {state last : σ} {count : Nat}
    (done : visit.run owner layout roots buffer state = .ok (after, count, last)) : after.size = buffer.size := by
  induction roots generalizing buffer state count with
  | nil =>
    cases done
    rfl
  | cons root rest ih =>
    unfold run at done
    obtain ⟨⟨written, next⟩, first, done⟩ := CallStacks.Failure.bind_eq_ok.mp done
    obtain ⟨⟨after', count', last'⟩, others, done⟩ := CallStacks.Failure.bind_eq_ok.mp done
    cases done
    exact (ih others).trans (size_of_slot first)

theorem frame_enduring (condemned : Generation) (seen : Nat × σ) (handle : Handle) :
    StoreM.Enduring (visit.frame condemned seen handle) := by
  intro store answer final done
  unfold frame at done
  obtain ⟨frame, _, asked, done⟩ := EStateM.bind_eq_ok.mp done
  obtain ⟨known, rfl⟩ := StoreM.ask_eq_ok.mp asked
  split at done
  · obtain ⟨_, rfl⟩ := EStateM.pure_eq_ok.mp done
    exact .refl store
  obtain ⟨⟨buffer, count, last⟩, _, asked, done⟩ := EStateM.bind_eq_ok.mp done
  obtain ⟨ran, rfl⟩ := StoreM.ask_eq_ok.mp asked
  obtain ⟨_, middle, changed, done⟩ := EStateM.bind_eq_ok.mp done
  obtain rfl := EStateM.modify_eq_ok.mp changed
  obtain ⟨_, rfl⟩ := EStateM.pure_eq_ok.mp done
  have ran := CallStacks.Failure.ofRefusal_eq_ok.mp ran
  obtain ⟨_, base, _⟩ := run_spec ran
  exact .setFrame (StoreM.frame_eq_ok.mp known)
    (.of_eq (by simp only [FrozenFrame.settled, base, size_of_run ran]) rfl)

theorem chain_enduring (condemned : Generation) (seen : Nat × σ) (head : Handle) :
    StoreM.Enduring (visit.chain condemned seen head) := by
  unfold chain
  refine .bind Endures.trans (.ask Endures.refl _) fun frame => ?_
  split
  · exact .pure Endures.refl _
  refine .bind Endures.trans (.ask Endures.refl _) fun members => ?_
  exact .foldlM Endures.refl Endures.trans members _ fun member _ seen => frame_enduring condemned seen member

private theorem chains_enduring (condemned : Generation) (state : σ) :
    StoreM.Enduring (visit.chains condemned state) := by
  apply StoreM.Respects.insisting
  refine .bind Endures.trans (.ask Endures.refl _) fun heads => ?_
  exact .foldlM Endures.refl Endures.trans heads _ fun head _ seen => chain_enduring condemned seen head

end Visitor

namespace Rejuvenation
open Store

variable {heap : Word → Generation} {oldest : Generation}

theorem frame_enduring (heap : Word → Generation) (oldest : Generation) (seen : Generation × Rejuvenation)
    (handle : Handle) : StoreM.Enduring (Rejuvenation.frame heap oldest seen handle) := by
  intro store answer final done
  unfold Rejuvenation.frame at done
  obtain ⟨frame, _, asked, done⟩ := EStateM.bind_eq_ok.mp done
  obtain ⟨known, rfl⟩ := StoreM.ask_eq_ok.mp asked
  split at done
  · obtain ⟨_, rfl⟩ := EStateM.pure_eq_ok.mp done
    exact .refl store
  next idle =>
  obtain ⟨⟨floor, words⟩, _, asked, done⟩ := EStateM.bind_eq_ok.mp done
  obtain ⟨_, rfl⟩ := StoreM.ask_eq_ok.mp asked
  dsimp only at done
  split at done
  · obtain ⟨_, middle, changed, done⟩ := EStateM.bind_eq_ok.mp done
    obtain rfl := EStateM.modify_eq_ok.mp changed
    obtain ⟨_, rfl⟩ := EStateM.pure_eq_ok.mp done
    exact .setFrame (StoreM.frame_eq_ok.mp known) ⟨rfl, fun active => absurd active idle⟩
  · obtain ⟨_, rfl⟩ := EStateM.pure_eq_ok.mp done
    exact .refl store

theorem chain_enduring (heap : Word → Generation) (condemned oldest : Generation) (done : Rejuvenation)
    (head : Handle) : StoreM.Enduring (Rejuvenation.chain heap oldest condemned done head) := by
  unfold Rejuvenation.chain
  refine .bind Endures.trans (.ask Endures.refl _) fun frame => ?_
  dsimp only
  split
  · exact .pure Endures.refl _
  refine .bind Endures.trans (.ask Endures.refl _) fun members => ?_
  refine .bind Endures.trans (.foldlM Endures.refl Endures.trans members _
    fun member _ seen => frame_enduring heap oldest seen member) fun gathered => ?_
  refine .bind Endures.trans ?_ fun _ => .pure Endures.refl _
  exact StoreM.changeFrame_enduring _ fun frame => frame.endures_lowered _

private theorem rejuvenate_enduring (heap : Word → Generation) (condemned oldest : Generation) :
    StoreM.Enduring (StoreM.rejuvenate heap condemned oldest) := by
  apply StoreM.Respects.insisting
  refine .bind Endures.trans (.ask Endures.refl _) fun heads => ?_
  exact .foldlM Endures.refl Endures.trans heads _ fun head _ done => chain_enduring heap condemned oldest done head

end Rejuvenation

namespace Freezer
open Store

variable {freezer later after : Freezer} {roster : Roster} {operation : Operation} {handle : Handle}
  {frame : FrozenFrame}

/-- The frame has just been frozen by the operation. -/
def Froze (freezer : Freezer) (operation : Operation) (frame : FrozenFrame) : Prop :=
  ∃ memory place frames limit visited capture,
    operation = .capture memory place frames limit ∧
      Capture.walk ⟨memory, place, freezer.settings.minArgBytes, limit⟩ {} frames = .ok (visited, capture) ∧
      ∃ frozen ∈ capture.frames, frame.offChain = frozen.offChain

/-- A frame that is in the store after an operation has endured it, unless the operation has frozen it. -/
theorem perform_endures (valid : Valid freezer.store roster) (done : freezer.perform operation = .ok after) :
    ∀ handle frame, after.store.arena.find? handle = some frame →
      (∃ old, freezer.store.arena.find? handle = some old ∧ old.Endures frame) ∨
        freezer.store.arena.find? handle = none ∧ freezer.Froze operation frame := by
  intro handle frame live
  have stays (endures : Endures freezer.store after.store) :
      (∃ old, freezer.store.arena.find? handle = some old ∧ old.Endures frame) ∨
        freezer.store.arena.find? handle = none ∧ freezer.Froze operation frame :=
    .inl (endures handle frame live)
  obtain ⟨ran, _⟩ := perform_ran done
  cases operation with
  | capture memory place frames limit =>
    obtain ⟨visited, capture, chain, walked, stored⟩ := ran
    obtain ⟨handles, _, installed, _⟩ := install_valid valid (Capture.fresh_of_walk walked) stored
    by_cases within : handle ∈ handles
    · refine .inr ⟨installed.fresh handle within, memory, place, frames, limit, visited, capture, rfl, walked, ?_⟩
      obtain ⟨frozen, member, held⟩ := held_of_mem installed.held within
      rw [live] at held
      exact ⟨frozen, member, Option.some.inj held⟩
    · rw [installed.others handle within] at live
      exact .inl ⟨frame, live, .refl frame⟩
  | register head => exact stays (StoreM.register_agrees head _ _ _ ran).endures_offRing
  | unregister head => exact stays (StoreM.unregister_agrees head _ _ _ ran).endures_offRing
  | delete gone =>
    obtain ⟨_, ran⟩ := ran
    exact stays (StoreM.detach_enduring gone _ _ _ ran)
  | deleteChain head =>
    obtain ⟨members, _, ran⟩ := ran
    refine stays (StoreM.Respects.forM Endures.refl Endures.trans _ (fun gone _ => ?_) _ _ _ ran)
    intro store answer final discarded
    obtain ⟨_, detached⟩ := EStateM.discard_eq_ok.mp discarded
    exact StoreM.detach_enduring gone _ _ _ detached
  | resume gone value landing memory =>
    obtain ⟨_, ran⟩ := ran
    exact stays (StoreM.prepare_enduring gone landing.sp _ _ _ ran)
  | collect visit condemned state =>
    obtain ⟨_, ran⟩ := ran
    exact stays (visit.chains_enduring condemned state _ _ _ ran)
  | age condemned oldest =>
    rcases ran with ⟨_, _, ran⟩ | ⟨_, ran⟩
    · exact stays (StoreM.age_enduring condemned oldest _ _ _ ran)
    · exact stays (ran ▸ .refl freezer.store)
  | rejuvenate heap condemned oldest =>
    rcases ran with ⟨_, _, ran⟩ | ⟨_, ran⟩
    · exact stays (Rejuvenation.rejuvenate_enduring heap condemned oldest _ _ _ ran)
    · exact stays (ran ▸ .refl freezer.store)
  | enterQuietScope => exact stays (ran ▸ .refl freezer.store)
  | leaveQuietScope => exact stays (ran ▸ .refl freezer.store)

inductive Stays (handle : Handle) (freezer : Freezer) : Freezer → Prop
  | start : Stays handle freezer freezer
  | step {later after : Freezer} (operation : Operation) (past : Stays handle freezer later)
      (done : later.perform operation = .ok after) (live : (after.store.arena.find? handle).isSome) :
      Stays handle freezer after

theorem Stays.reachable (stays : Stays handle freezer later) (reachable : Reachable freezer) : Reachable later := by
  induction stays with
  | start => exact reachable
  | step operation _ done _ ih => exact .step operation ih done

theorem Stays.endures (stays : Stays handle freezer later) (reachable : Reachable freezer)
    (live : freezer.store.arena.find? handle = some frame) :
    ∃ now, later.store.arena.find? handle = some now ∧ frame.Endures now := by
  induction stays with
  | start => exact ⟨frame, live, .refl frame⟩
  | step operation past done still ih =>
    obtain ⟨between, held, earlier⟩ := ih
    obtain ⟨roster, _, valid⟩ := (past.reachable reachable).history
    obtain ⟨now, known⟩ := Option.isSome_iff_exists.mp still
    rcases perform_endures valid done handle now known with ⟨old, before, endures⟩ | ⟨none, _⟩
    · obtain rfl : between = old := Option.some.inj (held.symm.trans before)
      exact ⟨now, known, earlier.trans endures⟩
    · rw [held] at none
      cases none

end Freezer
end CallStacks.Frozen
