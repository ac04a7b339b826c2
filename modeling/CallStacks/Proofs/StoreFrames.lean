import CallStacks.Frozen.Store.Ring
import CallStacks.Proofs.ArenaContents
import CallStacks.Proofs.StoreRuns

/-! What operations leave alone. Two stores agree on a view of frames if the same handles are live
in both and the view shows the same. An operation is described by the view it keeps and, apart from
that, by what it does to the rest. -/

namespace CallStacks.Frozen

variable {α β γ : Type}

namespace FrozenFrame

def offRing (frame : FrozenFrame) : FrozenFrame := { frame with ring := none }

def offChain (frame : FrozenFrame) : FrozenFrame := { frame with caller := none, callee := none }

def offFloor (frame : FrozenFrame) : FrozenFrame := { frame with floor := Generation.youngest }

def offBytes (frame : FrozenFrame) : FrozenFrame :=
  { frame with buffer := { frame.buffer with bytes := #[] } }

def neighbours (frame : FrozenFrame) : Option Handle × Option Handle × Option RingLinks :=
  (frame.callee, frame.caller, frame.ring)

def content (frame : FrozenFrame) : Buffer × Layout × Word × Delivery :=
  (frame.buffer, frame.layout, frame.resumeAt, frame.delivery)

def places (frame : FrozenFrame) : List Nat := frame.layout.interiors.map (·.offset.toNat)

/-- A frame as a capture makes it: on no chain, not registered, with the youngest floor. -/
structure Fresh (frame : FrozenFrame) : Prop where
  caller : frame.caller = none
  callee : frame.callee = none
  ring : frame.ring = none
  floor : frame.floor = Generation.youngest

end FrozenFrame

namespace Store

variable {store middle final : Store} {handle other : Handle} {frame : FrozenFrame}

theorem find?_setFrame (live : store.arena.find? handle = some frame) (changed : FrozenFrame)
    (other : Handle) :
    (store.setFrame handle changed).arena.find? other =
      if other = handle then some changed else store.arena.find? other :=
  Arena.find?_set live changed other

/-- The same handles are live, and a view of their frames shows the same. -/
structure Agrees (view : FrozenFrame → β) (store final : Store) : Prop where
  frames : ∀ handle, (final.arena.find? handle).map view = (store.arena.find? handle).map view
  sound : store.arena.Sound → final.arena.Sound

namespace Agrees

variable {view : FrozenFrame → β}

theorem refl (store : Store) : Agrees view store store := ⟨fun _ => rfl, id⟩

theorem trans (first : Agrees view store middle) (second : Agrees view middle final) :
    Agrees view store final :=
  ⟨fun handle => (second.frames handle).trans (first.frames handle), second.sound ∘ first.sound⟩

theorem coarsen (agrees : Agrees view store final) (coarser : FrozenFrame → γ) (back : β → γ)
    (through : ∀ frame, coarser frame = back (view frame)) : Agrees coarser store final := by
  refine ⟨fun handle => ?_, agrees.sound⟩
  have same : coarser = back ∘ view := funext through
  simp only [same, ← Option.map_map, agrees.frames handle]

theorem live_iff (agrees : Agrees view store final) (handle : Handle) :
    (final.arena.find? handle).isSome ↔ (store.arena.find? handle).isSome := by
  have same := congrArg Option.isSome (agrees.frames handle)
  simp only [Option.isSome_map] at same
  rw [same]

theorem forward (agrees : Agrees view store final)
    (live : store.arena.find? handle = some frame) :
    ∃ after, final.arena.find? handle = some after ∧ view after = view frame := by
  have same := agrees.frames handle
  rw [live, Option.map_some] at same
  exact Option.map_eq_some_iff.mp same

theorem backward (agrees : Agrees view store final)
    (live : final.arena.find? handle = some frame) :
    ∃ before, store.arena.find? handle = some before ∧ view frame = view before := by
  have same := agrees.frames handle
  rw [live, Option.map_some] at same
  obtain ⟨before, known, equal⟩ := Option.map_eq_some_iff.mp same.symm
  exact ⟨before, known, equal.symm⟩

theorem setFrame (live : store.arena.find? handle = some frame) {changed : FrozenFrame}
    (same : view changed = view frame) : Agrees view store (store.setFrame handle changed) := by
  refine ⟨fun other => ?_, fun sound => sound.set handle changed⟩
  rw [find?_setFrame live]
  by_cases equal : other = handle
  · subst equal
    simp [live, same]
  · simp [equal]

end Agrees

/-- Stores that agree on a view and also on the ring's anchor and count. -/
structure Undisturbed (view : FrozenFrame → β) (store final : Store) : Prop
    extends Agrees view store final where
  anchor : final.anchor = store.anchor
  registered : final.registered = store.registered

namespace Undisturbed

variable {view : FrozenFrame → β}

theorem refl (store : Store) : Undisturbed view store store := ⟨.refl store, rfl, rfl⟩

theorem trans (first : Undisturbed view store middle) (second : Undisturbed view middle final) :
    Undisturbed view store final :=
  ⟨first.toAgrees.trans second.toAgrees, second.anchor.trans first.anchor,
    second.registered.trans first.registered⟩

theorem coarsen (kept : Undisturbed view store final) (coarser : FrozenFrame → γ) (back : β → γ)
    (through : ∀ frame, coarser frame = back (view frame)) : Undisturbed coarser store final :=
  ⟨kept.toAgrees.coarsen coarser back through, kept.anchor, kept.registered⟩

theorem setFrame (live : store.arena.find? handle = some frame) {changed : FrozenFrame}
    (same : view changed = view frame) : Undisturbed view store (store.setFrame handle changed) :=
  ⟨.setFrame live same, rfl, rfl⟩

end Undisturbed

structure Altered (change : Handle → FrozenFrame → FrozenFrame) (store final : Store) : Prop where
  frames : ∀ handle, final.arena.find? handle = (store.arena.find? handle).map (change handle)
  sound : store.arena.Sound → final.arena.Sound
  anchor : final.anchor = store.anchor
  registered : final.registered = store.registered

namespace Altered

variable {change next : Handle → FrozenFrame → FrozenFrame}

theorem refl (store : Store) : Altered (fun _ frame => frame) store store :=
  ⟨fun handle => by simp, id, rfl, rfl⟩

theorem trans (first : Altered change store middle) (second : Altered next middle final) :
    Altered (fun handle frame => next handle (change handle frame)) store final := by
  refine ⟨fun handle => ?_, second.sound ∘ first.sound, second.anchor.trans first.anchor,
    second.registered.trans first.registered⟩
  rw [second.frames, first.frames, Option.map_map]
  rfl

theorem congr (altered : Altered change store final)
    (same : ∀ handle frame, change handle frame = next handle frame) : Altered next store final := by
  obtain rfl : change = next := funext fun handle => funext (same handle)
  exact altered

theorem undisturbed {view : FrozenFrame → β} (altered : Altered change store final)
    (same : ∀ handle frame, view (change handle frame) = view frame) :
    Undisturbed view store final := by
  refine ⟨⟨fun handle => ?_, altered.sound⟩, altered.anchor, altered.registered⟩
  rw [altered.frames, Option.map_map]
  exact congrFun (congrArg Option.map (funext (same handle))) _

theorem setFrame (live : store.arena.find? handle = some frame) (change : FrozenFrame → FrozenFrame) :
    Altered (fun other frame => if other = handle then change frame else frame) store
      (store.setFrame handle (change frame)) := by
  refine ⟨fun other => ?_, fun sound => sound.set handle (change frame), rfl, rfl⟩
  rw [find?_setFrame live]
  by_cases same : other = handle
  · subst same
    simp [live]
  · simp [same]

end Altered
end Store

namespace StoreM
open Store

variable {view : FrozenFrame → β}

theorem changeFrame_undisturbed (handle : Handle) {change : FrozenFrame → FrozenFrame}
    (same : ∀ frame, view (change frame) = view frame) :
    Respects (Undisturbed view) (changeFrame handle change) := by
  intro store answer final done
  obtain ⟨frame, live, rfl⟩ := changeFrame_eq_ok.mp done
  exact .setFrame live (same frame)

theorem changeFrame_run {store : Store} {handle : Handle} (live : (store.arena.find? handle).isSome)
    (change : FrozenFrame → FrozenFrame) :
    ∃ final, changeFrame handle change store = .ok () final ∧
      Altered (fun other frame => if other = handle then change frame else frame) store final := by
  obtain ⟨frame, live⟩ := Option.isSome_iff_exists.mp live
  exact ⟨_, changeFrame_of_live live change, .setFrame live change⟩

theorem tryFrame_undisturbed (handle : Handle) {change : FrozenFrame → Except Failure FrozenFrame}
    (same : ∀ frame changed, change frame = .ok changed → view changed = view frame) :
    Respects (Undisturbed view) (tryFrame handle change) := by
  intro store answer final done
  obtain ⟨frame, changed, live, ok, rfl⟩ := tryFrame_eq_ok.mp done
  exact .setFrame live (same frame changed ok)

theorem Respects.agrees {operation : StoreM α} (kept : Respects (Undisturbed view) operation) :
    Respects (Agrees view) operation :=
  fun store answer final done => (kept store answer final done).toAgrees

theorem changeFrame_agrees (handle : Handle) {change : FrozenFrame → FrozenFrame}
    (same : ∀ frame, view (change frame) = view frame) :
    Respects (Agrees view) (changeFrame handle change) :=
  (changeFrame_undisturbed handle same).agrees

theorem insert_eq_ok {frame : FrozenFrame} {handle : Handle} {store final : Store} :
    insert frame store = .ok handle final ↔
      ∃ arena, store.arena.insert frame = .ok (handle, arena) ∧ { store with arena } = final := by
  unfold insert
  simp only [EStateM.bind_eq_ok, ask_eq_ok, EStateM.modify_eq_ok, EStateM.pure_eq_ok, CallStacks.Failure.ofStop_eq_ok]
  constructor
  · rintro ⟨⟨_, arena⟩, _, ⟨inserted, rfl⟩, _, _, changed, rfl, rfl⟩
    exact ⟨arena, inserted, changed⟩
  · rintro ⟨arena, inserted, rfl⟩
    exact ⟨(handle, arena), store, ⟨inserted, rfl⟩, ⟨⟩, _, rfl, rfl, rfl⟩

theorem takeOut_eq_ok {frame : FrozenFrame} {handle : Handle} {store final : Store} :
    takeOut handle store = .ok frame final ↔
      ∃ arena, store.arena.remove handle = .ok (frame, arena) ∧ { store with arena } = final := by
  unfold takeOut
  simp only [EStateM.bind_eq_ok, ask_eq_ok, EStateM.modify_eq_ok, EStateM.pure_eq_ok]
  constructor
  · rintro ⟨⟨_, arena⟩, _, ⟨removed, rfl⟩, _, _, changed, rfl, rfl⟩
    exact ⟨arena, removed, changed⟩
  · rintro ⟨arena, removed, rfl⟩
    exact ⟨(frame, arena), store, ⟨removed, rfl⟩, ⟨⟩, _, rfl, rfl, rfl⟩

theorem get_agrees : Respects (Agrees view) get := by
  intro store answer final done
  obtain ⟨_, rfl⟩ := EStateM.get_eq_ok.mp done
  exact .refl store

theorem modify_agrees {change : Store → Store} (same : ∀ store, (change store).arena = store.arena) :
    Respects (Agrees view) (modify change : StoreM PUnit) :=
  .modify fun store => ⟨fun _ => by rw [same store], fun sound => by rw [same store]; exact sound⟩

theorem changeLinks_agrees (node : RingNode) (change : RingLinks → RingLinks) :
    Respects (Agrees FrozenFrame.offRing) (changeLinks node change) := by
  unfold changeLinks
  refine .bind Agrees.trans (.ask Agrees.refl _) fun links => ?_
  cases node with
  | anchor => exact modify_agrees fun _ => rfl
  | head handle =>
    apply changeFrame_agrees
    intro _
    rfl

theorem countDown_agrees : Respects (Agrees view) countDown := by
  unfold countDown
  refine .bind Agrees.trans get_agrees fun store => ?_
  cases store.registered with
  | zero => exact .throw _
  | succ count => exact modify_agrees fun _ => rfl

theorem hang_agrees (handle : Handle) : Respects (Agrees FrozenFrame.offRing) (hang handle) := by
  unfold hang
  refine .bind Agrees.trans get_agrees fun store => ?_
  refine .bind Agrees.trans (changeFrame_agrees handle ?_) fun _ => ?_
  · intro _
    rfl
  exact .bind Agrees.trans (changeLinks_agrees _ _) fun _ => modify_agrees fun _ => rfl

theorem register_agrees (handle : Handle) :
    Respects (Agrees FrozenFrame.offRing) (register handle) := by
  unfold register
  refine .bind Agrees.trans (.ask Agrees.refl _) fun frame => ?_
  dsimp only
  split
  · exact .throw_bind _ _
  split
  · exact .throw_bind _ _
  · exact hang_agrees handle

theorem unregister_agrees (handle : Handle) :
    Respects (Agrees FrozenFrame.offRing) (unregister handle) := by
  unfold unregister
  refine .bind Agrees.trans (.ask Agrees.refl _) fun frame => ?_
  cases frame.ring with
  | none => exact .throw _
  | some links =>
    refine .bind Agrees.trans (changeLinks_agrees _ _) fun _ => ?_
    refine .bind Agrees.trans (changeLinks_agrees _ _) fun _ => ?_
    refine .bind Agrees.trans (changeFrame_agrees handle ?_) fun _ => countDown_agrees
    intro _
    rfl

theorem replaceHead_agrees (old new : Handle) :
    Respects (Agrees FrozenFrame.offRing) (replaceHead old new) := by
  unfold replaceHead
  refine .bind Agrees.trans (.ask Agrees.refl _) fun frame => ?_
  cases frame.ring with
  | none => exact .throw _
  | some links =>
    refine .bind Agrees.trans (changeFrame_agrees old ?_) fun _ => ?_
    · intro _
      rfl
    refine .bind Agrees.trans (changeFrame_agrees new ?_) fun _ => ?_
    · intro _
      rfl
    exact .bind Agrees.trans (changeLinks_agrees _ _) fun _ => changeLinks_agrees _ _

theorem leaveRing_agrees (handle : Handle) (frame : FrozenFrame) :
    Respects (Agrees FrozenFrame.offRing) (leaveRing handle frame) := by
  unfold leaveRing
  split
  · split
    · exact replaceHead_agrees _ _
    · exact unregister_agrees _
  · exact .pure Agrees.refl _

theorem bypass_undisturbed (frame : FrozenFrame) :
    Respects (Undisturbed FrozenFrame.offChain) (bypass frame) := by
  unfold bypass
  refine .bind Undisturbed.trans (.optionForM Undisturbed.refl _ fun caller => ?_) fun _ =>
    .optionForM Undisturbed.refl _ fun callee => ?_
  · apply changeFrame_undisturbed
    intro _
    rfl
  · apply changeFrame_undisturbed
    intro _
    rfl

theorem takeOver_undisturbed (head : Handle) :
    Respects (Undisturbed FrozenFrame.offFloor) (takeOver head) := by
  unfold takeOver
  refine .bind Undisturbed.trans (.ask Undisturbed.refl _) fun floor => ?_
  apply changeFrame_undisturbed
  intro _
  rfl

end StoreM
end CallStacks.Frozen
