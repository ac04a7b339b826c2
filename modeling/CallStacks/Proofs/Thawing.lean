import CallStacks.Frozen.Resume
import CallStacks.Proofs.BufferMoves
import CallStacks.Proofs.RosterRuns

/-! What happens in the store when a frame is resumed. The pointers of the frame and of its callers
follow the frame, the rest of the chain may become active, and the frame leaves its chain. -/

namespace CallStacks.Frozen

def FrozenFrame.sweep (frame : FrozenFrame) (shift : Shift) : Except Refusal FrozenFrame :=
  frame.layout.interiors.foldlM (fun frame slot => frame.relocate slot.offset shift) frame

theorem FrozenFrame.offBytes_of_relocate {frame moved : FrozenFrame} {offset : UInt32} {shift : Shift}
    (done : frame.relocate offset shift = .ok moved) : moved.offBytes = frame.offBytes := by
  unfold FrozenFrame.relocate at done
  obtain ⟨place, _, done⟩ := CallStacks.Failure.bind_eq_ok.mp done
  obtain ⟨⟨buffer, flag⟩, relocated, done⟩ := CallStacks.Failure.bind_eq_ok.mp done
  cases done
  simp only [FrozenFrame.offBytes, (Buffer.relocate_spec relocated).base]

namespace Store

variable {store middle final : Store} {roster : Roster} {before after : List Handle}
  {handle : Handle} {frame : FrozenFrame} {shift : Shift} {sp : Word}

theorem relocateInteriors_undisturbed (shift : Shift) (member : Handle × FrozenFrame) :
    StoreM.Respects (Undisturbed FrozenFrame.offBytes) (StoreM.relocateInteriors shift member) := by
  refine .forM Undisturbed.refl Undisturbed.trans member.2.layout.interiors fun slot _ => ?_
  apply StoreM.tryFrame_undisturbed
  intro frame changed moved
  exact FrozenFrame.offBytes_of_relocate (CallStacks.Failure.ofRefusal_eq_ok.mp moved)

/-- Steps on one frame, one after another, are one fold over that frame. -/
theorem forM_sameFrame_spec {α : Type} {items : List α}
    {change : FrozenFrame → α → Except Refusal FrozenFrame}
    (live : store.arena.find? handle = some frame)
    (done : items.forM (fun item => StoreM.tryFrame handle fun frame =>
      CallStacks.Failure.ofRefusal (change frame item)) store = .ok () final) :
    ∃ last, items.foldlM change frame = .ok last ∧
      ∀ other, final.arena.find? other = if other = handle then some last else store.arena.find? other := by
  induction items generalizing store frame with
  | nil =>
    obtain ⟨_, rfl⟩ := EStateM.pure_eq_ok.mp done
    refine ⟨frame, rfl, fun other => ?_⟩
    split
    next same => rw [same, live]
    next => rfl
  | cons first rest ih =>
    obtain ⟨middle, ran, done⟩ := EStateM.forM_cons_eq_ok.mp done
    obtain ⟨old, changed, live', moved, rfl⟩ := StoreM.tryFrame_eq_ok.mp ran
    obtain rfl : frame = old := Option.some.inj (live.symm.trans live')
    obtain ⟨last, folded, others⟩ := ih (by rw [find?_setFrame live, if_pos rfl]) done
    refine ⟨last, ?_, fun other => ?_⟩
    · rw [List.foldlM_cons, CallStacks.Failure.ofRefusal_eq_ok.mp moved]
      exact folded
    · rw [others, find?_setFrame live]
      split <;> rfl

structure Swept (shift : Shift) (movers : List Handle) (store final : Store) : Prop where
  each : ∀ handle ∈ movers, ∃ frame swept, store.arena.find? handle = some frame ∧
    frame.sweep shift = .ok swept ∧ final.arena.find? handle = some swept
  others : ∀ other, other ∉ movers → final.arena.find? other = store.arena.find? other
  kept : Undisturbed FrozenFrame.offBytes store final

theorem Swept.append {movers more : List Handle} (first : Swept shift movers store middle)
    (second : Swept shift more middle final) (apart : ∀ handle ∈ movers, handle ∉ more) :
    Swept shift (movers ++ more) store final := by
  refine ⟨fun handle within => ?_, fun other outside => ?_, first.kept.trans second.kept⟩
  · rcases List.mem_append.mp within with early | late
    · obtain ⟨frame, swept, live, folded, now⟩ := first.each handle early
      exact ⟨frame, swept, live, folded, by rw [second.others handle (apart handle early), now]⟩
    · obtain ⟨frame, swept, live, folded, now⟩ := second.each handle late
      rw [first.others handle fun early => apart handle early late] at live
      exact ⟨frame, swept, live, folded, now⟩
  · simp only [List.mem_append, not_or] at outside
    rw [second.others other outside.2, first.others other outside.1]

theorem relocateInteriors_spec {outer : FrozenFrame} (live : store.arena.find? handle = some frame)
    (same : outer.layout = frame.layout)
    (done : StoreM.relocateInteriors shift (handle, outer) store = .ok () final) :
    Swept shift [handle] store final := by
  have kept := relocateInteriors_undisturbed shift _ store () final done
  unfold StoreM.relocateInteriors at done
  rw [same] at done
  obtain ⟨swept, folded, all⟩ := forM_sameFrame_spec live done
  refine ⟨fun other within => ?_, fun other outside => ?_, kept⟩
  · obtain rfl := List.mem_singleton.mp within
    exact ⟨frame, swept, live, folded, by rw [all, if_pos rfl]⟩
  · rw [all, if_neg (by simpa using outside)]

private theorem sweepAll_spec {movers : List (Handle × FrozenFrame)} (distinct : (movers.map (·.1)).Nodup)
    (live : ∀ member ∈ movers, (store.arena.find? member.1).map FrozenFrame.layout = some member.2.layout)
    (done : movers.forM (StoreM.relocateInteriors shift) store = .ok () final) :
    Swept shift (movers.map (·.1)) store final := by
  induction movers generalizing store with
  | nil =>
    obtain ⟨_, rfl⟩ := EStateM.pure_eq_ok.mp done
    exact ⟨by simp, fun _ _ => rfl, .refl store⟩
  | cons first rest ih =>
    obtain ⟨fresh, distinct⟩ : first.1 ∉ rest.map (·.1) ∧ (rest.map (·.1)).Nodup :=
      List.nodup_cons.mp distinct
    obtain ⟨middle, ran, done⟩ := EStateM.forM_cons_eq_ok.mp done
    obtain ⟨frame, known, same⟩ := Option.map_eq_some_iff.mp (live first (by simp))
    have one := relocateInteriors_spec known same.symm ran
    have apart : ∀ handle ∈ [first.1], handle ∉ rest.map (·.1) := by simpa using fresh
    refine one.append (ih distinct (fun member within => ?_) done) apart
    rw [one.others member.1 fun early => apart _ early (List.mem_map_of_mem within)]
    exact live member (by simp [within])

private theorem activate_spec {members : List Handle} (distinct : members.Nodup)
    (done : members.forM (fun member => StoreM.changeFrame member ({ · with floor := Generation.active }))
      store = .ok () final) :
    (∀ member ∈ members, final.floor? member = some Generation.active) ∧
      (∀ other, other ∉ members → final.floor? other = store.floor? other) ∧
      Undisturbed FrozenFrame.offFloor store final := by
  simp only [StoreM.changeFrame_eq_tryFrame] at done
  obtain ⟨each, others⟩ := forM_tryFrame_spec distinct done
  refine ⟨fun member within => ?_, fun other outside => ?_, ?_⟩
  · obtain ⟨frame, changed, _, same, now⟩ := each member within
    cases same
    rw [floor?, now]
    rfl
  · rw [floor?, others other outside, floor?]
  · refine StoreM.Respects.forM Undisturbed.refl Undisturbed.trans members (fun member _ => ?_) store () final done
    apply StoreM.tryFrame_undisturbed
    intro frame changed same
    cases same
    rfl

def anyInteriors (store : Store) (handles : List Handle) : Bool :=
  handles.any fun handle => (store.arena.find? handle).any (·.layout.hasInteriors)

private theorem any_listing (store : Store) (handles : List Handle) :
    (store.listing handles).any (·.2.layout.hasInteriors) = store.anyInteriors handles := by
  induction handles with
  | nil => rfl
  | cons first rest ih =>
    cases live : store.arena.find? first with
    | none =>
      simp only [listing, live, anyInteriors, List.filterMap_cons, Option.map_none, List.any_cons, Option.any_none,
        Bool.false_or] at ih ⊢
      exact ih
    | some frame =>
      simp only [listing_cons_of_live live, List.any_cons, ih]
      simp only [anyInteriors, List.any_cons, live, Option.any_some]

theorem Undisturbed.anyInteriors (kept : Undisturbed FrozenFrame.offBytes store final) (handles : List Handle) :
    final.anyInteriors handles = store.anyInteriors handles := by
  have layouts : Undisturbed FrozenFrame.layout store final := kept.coarsen _ (·.layout) fun _ => rfl
  have same : ∀ handle, (final.arena.find? handle).any (·.layout.hasInteriors) =
      (store.arena.find? handle).any (·.layout.hasInteriors) := fun handle => by
    have shown := congrArg (Option.any Layout.hasInteriors) (layouts.frames handle)
    simpa only [Option.any_map, Function.comp_def] using shown
  simp only [Store.anyInteriors, same]

/-- The floors of a chain once one of its frames is about to run: all are active if that frame or one of its
callers has interior pointers. -/
structure Woken (store : Store) (chain running : List Handle) (final : Store) : Prop where
  floors : if store.anyInteriors running then ∀ other ∈ chain, final.floor? other = some Generation.active
    else ∀ other, final.floor? other = store.floor? other
  others : ∀ other, other ∉ chain → final.floor? other = store.floor? other

structure Thawed (store : Store) (roster : Roster) (handle : Handle) (sp : Word) (removed : FrozenFrame)
    (final : Store) : Prop where
  valid : Valid final (roster.without [handle])
  left : ∀ before after, before ++ handle :: after ∈ roster.chains → ∃ woken,
    Woken store (before ++ handle :: after) (handle :: after) woken ∧ Detached woken before handle after final
  moved : ∃ before after frame middle, before ++ handle :: after ∈ roster.chains ∧
    store.arena.find? handle = some frame ∧ Swept (frame.shiftTo sp) (handle :: after) store middle ∧
    (middle.arena.find? handle).map FrozenFrame.content = some removed.content ∧
    final.arena.find? handle = none ∧ ∀ other, other ≠ handle →
      (final.arena.find? other).map FrozenFrame.content = (middle.arena.find? other).map FrozenFrame.content

theorem live_after (valid : Valid store roster) (member : before ++ handle :: after ∈ roster.chains) :
    ∀ other ∈ after, (store.arena.find? other).isSome := fun _ within =>
  valid.live_of_mem member (List.mem_append_right _ (List.mem_cons_of_mem _ within))

theorem callersOf_run (valid : Valid store roster) (member : before ++ handle :: after ∈ roster.chains)
    (caller : frame.caller = after.head?) :
    StoreM.callersOf frame store = .ok (store.listing after) store := by
  unfold StoreM.callersOf
  rw [caller]
  cases after with
  | nil => rfl
  | cons next rest =>
    have split : before ++ handle :: next :: rest = (before ++ [handle]) ++ next :: rest := by simp
    exact StoreM.ask_of_ok (path_caller (split ▸ valid.linked _ member) (split ▸ valid.chain_distinct member))

theorem chainMembers_of_chainHead {head : Handle} (valid : Represents store roster)
    (member : before ++ handle :: after ∈ roster.chains) (led : store.chainHead handle = .ok head) :
    store.chainMembers head = .ok (before ++ handle :: after).reverse := by
  obtain ⟨inner, last, split, known⟩ := valid.chainHead_of_member member (show handle ∈ _ by simp)
  obtain rfl : head = last := Except.ok.inj (led.symm.trans known)
  rw [split] at member ⊢
  rw [chainMembers_eq (valid.linked _ member) (valid.chain_distinct member)]
  simp

theorem prepare_spec {removed : FrozenFrame} (valid : Valid store roster)
    (done : StoreM.prepare handle sp store = .ok removed final) :
    Thawed store roster handle sp removed final := by
  unfold StoreM.prepare at done
  obtain ⟨head, _, asked, done⟩ := EStateM.bind_eq_ok.mp done
  obtain ⟨led, rfl⟩ := StoreM.ask_eq_ok.mp asked
  obtain ⟨members, _, asked, done⟩ := EStateM.bind_eq_ok.mp done
  obtain ⟨listed, rfl⟩ := StoreM.ask_eq_ok.mp asked
  obtain ⟨frame, _, asked, done⟩ := EStateM.bind_eq_ok.mp done
  obtain ⟨known, rfl⟩ := StoreM.ask_eq_ok.mp asked
  have live := StoreM.frame_eq_ok.mp known
  obtain ⟨before, after, member, _, caller⟩ := valid.place live
  have distinct := valid.chain_distinct member
  -- the frame and its callers follow it
  obtain ⟨_, one, ran, done⟩ := EStateM.bind_eq_ok.mp done
  have first := relocateInteriors_spec live rfl ran
  obtain ⟨callers, _, asked, done⟩ := EStateM.bind_eq_ok.mp done
  obtain ⟨rfl, rfl⟩ := EStateM.outcome_unique asked (callersOf_run (valid.repainted first.kept) member caller)
  obtain ⟨_, two, ran, done⟩ := EStateM.bind_eq_ok.mp done
  have names := map_listing (live_after (valid.repainted first.kept) member)
  have parts := List.nodup_append.mp distinct
  obtain ⟨fresh, distinctAfter⟩ := List.nodup_cons.mp parts.2.1
  have second := sweepAll_spec (by rwa [names]) (fun other within => ?_) ran
  rw [names] at second
  have swept := first.append second (by simpa using fresh)
  have still := valid.repainted swept.kept
  have bounds : Undisturbed FrozenFrame.floor store two := swept.kept.coarsen _ (·.floor) fun _ => rfl
  -- the chain may become active
  obtain ⟨three, valid', kept, woken, done⟩ : ∃ three, Valid three roster ∧
      Undisturbed FrozenFrame.offFloor two three ∧
      Woken store (before ++ handle :: after) (handle :: after) three ∧
      StoreM.detach handle three = .ok removed final := by
    have wakes : (frame.layout.hasInteriors || (one.listing after).any (·.2.layout.hasInteriors)) =
        store.anyInteriors (handle :: after) := by
      rw [any_listing, first.kept.anyInteriors]
      simp only [anyInteriors, List.any_cons, live, Option.any_some]
    dsimp only at done
    rw [wakes] at done
    split at done
    · obtain ⟨_, three, ran, last⟩ := EStateM.bind_eq_ok.mp done
      rw [chainMembers_of_chainHead valid.toRepresents member led] at listed
      cases listed
      obtain ⟨active, others, kept⟩ := activate_spec (List.nodup_reverse.mpr distinct) ran
      refine ⟨three, still.refloored member kept (fun head top floor known other within => ?_)
        (fun other outside => others other (by rwa [List.mem_reverse])), kept, ⟨?_, fun other outside => ?_⟩, last⟩
      · rw [active head (List.mem_reverse.mpr (List.mem_of_getLast? top))] at known
        obtain ⟨low, inside, now⟩ := List.mem_filterMap.mp within
        rw [active low (List.mem_reverse.mpr inside)] at now
        exact Int.le_of_eq ((Option.some.inj known).symm.trans (Option.some.inj now))
      · rw [if_pos ‹_›]
        exact fun other within => active other (List.mem_reverse.mpr within)
      · exact (others other (by rwa [List.mem_reverse])).trans (bounds.frames other)
    · refine ⟨two, still, .refl two, ⟨?_, fun other _ => bounds.frames other⟩, done⟩
      rw [if_neg ‹_›]
      exact bounds.frames
  obtain ⟨left, liveLeft⟩ := Option.isSome_iff_exists.mp (valid'.live_of_mem member (show handle ∈ _ by simp))
  obtain ⟨removed', final', ran, content, valid'', detached⟩ := detach_spec valid' member liveLeft
  obtain ⟨rfl, rfl⟩ := EStateM.outcome_unique done ran
  have same : Undisturbed FrozenFrame.content two three := kept.coarsen _ FrozenFrame.content fun _ => rfl
  refine ⟨valid'', fun start rest inside => ?_, before, after, frame, two, member, live, swept, ?_, detached.gone,
    fun other different => ?_⟩
  · have shared := eq_of_shared valid.distinct member inside (show handle ∈ _ by simp) (by simp)
    obtain ⟨rfl, _, rfl⟩ := (List.append_cons_inj_of_notMem (fun early => parts.2.2 handle early handle (by simp) rfl)
      fun late => fresh late).mp shared
    exact ⟨three, woken, detached⟩
  · rw [← same.frames handle, liveLeft, Option.map_some, content]
  · rw [detached.content other different, same.frames other]
  · obtain ⟨handle, _, shown⟩ := List.mem_filterMap.mp within
    obtain ⟨outer, found, rfl⟩ := Option.map_eq_some_iff.mp shown
    rw [found]
    rfl

end Store
end CallStacks.Frozen
