import CallStacks.Proofs.Thawing

/-! When a frame can be resumed. The pointers of the frame and of its callers have to lie in their buffers,
the list of registers to reload has to end, and the place of the return address has to exist. -/

namespace CallStacks.Frozen

variable {shift : Shift} {frame : FrozenFrame}

theorem Buffer.relocate_run {buffer : Buffer} {offset : Nat} (shift : Shift) (fits : offset + 8 ≤ buffer.size) :
    ∃ after flag, buffer.relocate offset shift = .ok (after, flag) := by
  obtain ⟨word, read⟩ := Buffer.read_of_inside fits
  exact ⟨_, _, Buffer.relocate_of_read read⟩

theorem Layout.bufferOffset_of_whole {layout : Layout} (whole : layout.unrecorded = 0) (offset : UInt32) :
    layout.bufferOffset offset = .ok offset.toNat := by
  unfold Layout.bufferOffset
  rw [whole, if_pos (UInt32.zero_le), UInt32.sub_zero]

namespace FrozenFrame

/-- All pointers of the frame can be reached in its buffer. -/
structure Ready (frame : FrozenFrame) : Prop where
  whole : frame.layout.unrecorded = 0
  fits : ∀ slot ∈ frame.places, slot + 8 ≤ frame.buffer.size

private theorem sweep_run (shift : Shift) (ready : frame.Ready) : ∃ swept, frame.sweep shift = .ok swept := by
  have each : ∀ (slots : List InteriorSlot) (frame : FrozenFrame), frame.layout.unrecorded = 0 →
      (∀ slot ∈ slots, slot.offset.toNat + 8 ≤ frame.buffer.size) →
      ∃ swept, slots.foldlM (fun frame slot => frame.relocate slot.offset shift) frame = .ok swept := by
    intro slots
    induction slots with
    | nil => exact fun frame _ _ => ⟨frame, rfl⟩
    | cons slot rest ih =>
      intro frame whole fits
      obtain ⟨after, flag, moved⟩ := Buffer.relocate_run shift (fits slot List.mem_cons_self)
      have placed := Layout.bufferOffset_of_whole whole slot.offset
      have first : frame.relocate slot.offset shift = .ok { frame with buffer := after } := by
        unfold FrozenFrame.relocate
        simp only [placed, moved, bind, Except.bind, pure, Except.pure]
      obtain ⟨swept, others⟩ := ih { frame with buffer := after } whole fun other within => by
        rw [(Buffer.relocate_spec moved).size]
        exact fits other (List.mem_cons_of_mem _ within)
      refine ⟨swept, ?_⟩
      rw [List.foldlM_cons, first]
      exact others
  exact each frame.layout.interiors frame ready.whole fun slot within =>
    ready.fits _ (List.mem_map_of_mem within)

theorem splice_run (value : ResumeValue) (landing : Landing) (memory : Memory)
    (closed : frame.layout.reloads.getLast?.any (·.tag.endsList) = true)
    (room : landing.sp.toNat + frame.layout.returnOffset.toNat < UInt64.size) :
    ∃ answer, frame.splice value landing memory = .ok answer := by
  obtain ⟨slot, added⟩ : ∃ slot, Word.add? landing.sp frame.layout.returnOffset.toUInt64 = some slot := by
    unfold Word.add?
    rw [if_pos (by simpa using room)]
    exact ⟨_, rfl⟩
  unfold splice
  simp only [added, closed, CallStacks.Failure.ofOption, if_true, bind, Except.bind, pure, Except.pure]
  exact ⟨_, rfl⟩

end FrozenFrame

namespace Store

variable {store : Store} {roster : Roster} {before after : List Handle} {handle : Handle}

private theorem forM_sameFrame_run {α : Type} {items : List α} {change : FrozenFrame → α → Except Refusal FrozenFrame}
    {last : FrozenFrame} (live : store.arena.find? handle = some frame)
    (folded : items.foldlM change frame = .ok last) :
    ∃ final, items.forM (fun item => StoreM.tryFrame handle fun frame =>
      CallStacks.Failure.ofRefusal (change frame item)) store = .ok () final := by
  induction items generalizing store frame with
  | nil => exact ⟨store, rfl⟩
  | cons first rest ih =>
    rw [List.foldlM_cons] at folded
    obtain ⟨next, changed, others⟩ := CallStacks.Failure.bind_eq_ok.mp folded
    have one : StoreM.tryFrame handle (fun frame => CallStacks.Failure.ofRefusal (change frame first)) store =
        .ok () (store.setFrame handle next) :=
      StoreM.tryFrame_eq_ok.mpr ⟨frame, next, live, CallStacks.Failure.ofRefusal_eq_ok.mpr changed, rfl⟩
    obtain ⟨final, more⟩ := ih (by rw [find?_setFrame live, if_pos rfl]) others
    exact ⟨final, EStateM.forM_cons_eq_ok.mpr ⟨_, one, more⟩⟩

private theorem relocateInteriors_run {outer : FrozenFrame} (shift : Shift)
    (live : store.arena.find? handle = some frame)
    (same : outer.layout = frame.layout) (ready : frame.Ready) :
    ∃ final, StoreM.relocateInteriors shift (handle, outer) store = .ok () final := by
  obtain ⟨swept, folded⟩ := FrozenFrame.sweep_run shift ready
  unfold StoreM.relocateInteriors
  rw [same]
  exact forM_sameFrame_run live folded

private theorem sweepAll_run {movers : List (Handle × FrozenFrame)} (shift : Shift)
    (distinct : (movers.map (·.1)).Nodup)
    (live : ∀ member ∈ movers, ∃ frame, store.arena.find? member.1 = some frame ∧
      frame.layout = member.2.layout ∧ frame.Ready) :
    ∃ final, movers.forM (StoreM.relocateInteriors shift) store = .ok () final := by
  induction movers generalizing store with
  | nil => exact ⟨store, rfl⟩
  | cons first rest ih =>
    obtain ⟨fresh, distinct⟩ : first.1 ∉ rest.map (·.1) ∧ (rest.map (·.1)).Nodup :=
      List.nodup_cons.mp distinct
    obtain ⟨frame, known, same, ready⟩ := live first List.mem_cons_self
    obtain ⟨middle, ran⟩ := relocateInteriors_run shift known same.symm ready
    have one := relocateInteriors_spec known same.symm ran
    have still : ∀ member ∈ rest, ∃ frame, middle.arena.find? member.1 = some frame ∧
        frame.layout = member.2.layout ∧ frame.Ready := by
      intro member within
      rw [one.others member.1 fun early => fresh (List.mem_singleton.mp early ▸ List.mem_map_of_mem within)]
      exact live member (List.mem_cons_of_mem _ within)
    obtain ⟨final, others⟩ := ih distinct still
    exact ⟨final, EStateM.forM_cons_eq_ok.mpr ⟨middle, ran, others⟩⟩

private theorem activate_run {members : List Handle} (live : ∀ member ∈ members, (store.arena.find? member).isSome) :
    ∃ final, members.forM (fun member => StoreM.changeFrame member ({ · with floor := Generation.active }))
      store = .ok () final ∧ Undisturbed FrozenFrame.offFloor store final := by
  induction members generalizing store with
  | nil => exact ⟨store, rfl, .refl store⟩
  | cons first rest ih =>
    obtain ⟨middle, ran, altered⟩ := StoreM.changeFrame_run (live first List.mem_cons_self)
      ({ · with floor := Generation.active })
    have still : ∀ member ∈ rest, (middle.arena.find? member).isSome := by
      intro member within
      rw [altered.frames, Option.isSome_map]
      exact live member (List.mem_cons_of_mem _ within)
    obtain ⟨final, more, kept⟩ := ih still
    refine ⟨final, EStateM.forM_cons_eq_ok.mpr ⟨middle, ran, more⟩, Undisturbed.trans ?_ kept⟩
    apply altered.undisturbed
    intro other frame
    split <;> rfl

/-- A frame of a valid store can be prepared if it and its callers are ready. -/
theorem prepare_run (sp : Word) (valid : Valid store roster) (member : before ++ handle :: after ∈ roster.chains)
    (ready : ∀ other ∈ handle :: after, ∀ frame, store.arena.find? other = some frame → frame.Ready) :
    ∃ removed final, StoreM.prepare handle sp store = .ok removed final := by
  have threaded := valid.linked _ member
  have distinct := valid.chain_distinct member
  obtain ⟨frame, live, _, caller⟩ := frame_of_threaded threaded
  have led := chainHead_eq threaded distinct
  have listed := chainMembers_of_chainHead valid.toRepresents member led
  unfold StoreM.prepare
  rw [EStateM.bind_of_ok (StoreM.ask_of_ok led), EStateM.bind_of_ok (StoreM.ask_of_ok listed),
    EStateM.bind_of_ok (StoreM.askFrame_of_live live)]
  obtain ⟨one, ran⟩ := relocateInteriors_run (frame.shiftTo sp) live rfl
    (ready handle List.mem_cons_self frame live)
  have first := relocateInteriors_spec live rfl ran
  have still := valid.repainted first.kept
  dsimp only
  rw [EStateM.bind_of_ok ran, EStateM.bind_of_ok (callersOf_run still member caller)]
  -- the callers are as they were
  obtain ⟨fresh, distinctAfter⟩ := List.nodup_cons.mp (List.nodup_append.mp distinct).2.1
  have names := map_listing (live_after still member)
  have callers : ∀ other ∈ one.listing after, ∃ frame, one.arena.find? other.1 = some frame ∧
      frame.layout = other.2.layout ∧ frame.Ready := by
    intro other within
    obtain ⟨caller, inside, shown⟩ := List.mem_filterMap.mp within
    obtain ⟨outer, found, rfl⟩ := Option.map_eq_some_iff.mp shown
    refine ⟨outer, found, rfl, ready caller (List.mem_cons_of_mem _ inside) outer ?_⟩
    rw [← first.others caller fun same => fresh (List.mem_singleton.mp same ▸ inside)]
    exact found
  obtain ⟨two, swept⟩ := sweepAll_run (frame.shiftTo sp) (by rwa [names]) callers
  have kept := StoreM.Respects.forM Undisturbed.refl Undisturbed.trans (one.listing after)
    (fun other _ => relocateInteriors_undisturbed (frame.shiftTo sp) other) _ _ _ swept
  have valid' := still.repainted kept
  rw [EStateM.bind_of_ok swept]
  split
  · have alive : ∀ other ∈ (before ++ handle :: after).reverse, (two.arena.find? other).isSome :=
      fun other within => valid'.live_of_mem member (List.mem_reverse.mp within)
    obtain ⟨three, active, same⟩ := activate_run alive
    rw [EStateM.bind_of_ok active]
    have represents := valid'.toRepresents.undisturbed (same.coarsen _ FrozenFrame.neighbours fun _ => rfl)
    obtain ⟨left, live'⟩ := Option.isSome_iff_exists.mp (represents.live_of_mem member (show handle ∈ _ by simp))
    obtain ⟨removed, final, done, _⟩ := detach_run represents member live'
    exact ⟨removed, final, done⟩
  · obtain ⟨left, live'⟩ := Option.isSome_iff_exists.mp (valid'.live_of_mem member (show handle ∈ _ by simp))
    obtain ⟨removed, final, done, _⟩ := detach_run valid'.toRepresents member live'
    exact ⟨removed, final, done⟩

end Store
end CallStacks.Frozen
