import CallStacks.Proofs.RingSteps
import CallStacks.Proofs.RosterChanges

/-! What becomes of a chain when a frame leaves it. Its neighbours close up over it, and a frame that
becomes head takes the lowest floor of those it then stands for. -/

namespace CallStacks.Frozen

namespace Store

variable {store middle final : Store} {before after : List Handle} {handle head : Handle}
  {frame : FrozenFrame} {roster : Roster}

/-- A frame whose neighbours in the chain have closed up over a gap. -/
def closing (before after : Option Handle) (other : Handle) (frame : FrozenFrame) : FrozenFrame :=
  { frame with
    callee := if after = some other then before else frame.callee
    caller := if before = some other then after else frame.caller }

private theorem neighbour_run (side : Option Handle)
    (live : ∀ other, side = some other → (store.arena.find? other).isSome)
    (change : FrozenFrame → FrozenFrame) :
    ∃ final, side.forM (StoreM.changeFrame · change) store = .ok () final ∧
      Altered (fun other frame => if side = some other then change frame else frame) store final := by
  cases side with
  | none => exact ⟨store, rfl, by simpa using Altered.refl store⟩
  | some other =>
    obtain ⟨final, ran, altered⟩ := StoreM.changeFrame_run (live other rfl) change
    exact ⟨final, ran, by simpa only [Option.some.injEq, eq_comm] using altered⟩

private theorem bypass_run (threaded : Threaded store.chainEnds (before ++ handle :: after))
    (live : store.arena.find? handle = some frame) :
    ∃ final, StoreM.bypass frame store = .ok () final ∧
      Altered (closing before.getLast? after.head?) store final := by
  obtain ⟨found, known, callee, caller⟩ := frame_of_threaded threaded
  obtain rfl : frame = found := Option.some.inj (live.symm.trans known)
  obtain ⟨one, ranOne, altered⟩ := neighbour_run after.head?
    (fun other first => live_of_threaded threaded (by simp [List.mem_of_head? first]))
    ({ · with callee := before.getLast? })
  obtain ⟨two, ranTwo, altered'⟩ := neighbour_run before.getLast?
    (fun other last => by
      rw [altered.frames, Option.isSome_map]
      exact live_of_threaded threaded (by simp [List.mem_of_getLast? last]))
    ({ · with caller := after.head? })
  refine ⟨two, ?_, (altered.trans altered').congr fun other frame => ?_⟩
  · unfold StoreM.bypass
    rw [callee, caller, EStateM.bind_of_ok ranOne]
    exact ranTwo
  · unfold closing
    split <;> split <;> rfl

/-- The lists that the chains of a store are, once its frames close up over a gap. -/
theorem chainEnds_closing {one other : Option Handle} (altered : Altered (closing one other) store final)
    (member : Handle) : final.chainEnds member = (store.chainEnds member).map fun known =>
      ⟨if other = some member then one else known.before,
        if one = some member then other else known.after⟩ := by
  simp only [chainEnds, altered.frames, Option.map_map]
  rfl

private theorem takeOver_run (threaded : Threaded store.chainEnds (before ++ [head]))
    (distinct : (before ++ [head]).Nodup) : ∃ floor final,
      (store.floors (before ++ [head])).min? = some floor ∧
      StoreM.takeOver head store = .ok () final ∧
      Altered (fun other frame => if other = head then { frame with floor } else frame) store final := by
  obtain ⟨frame, live, _⟩ := frame_of_threaded threaded
  obtain ⟨floor, known, lowest⟩ := chainFloor_eq threaded distinct
  have below : floor ≤ frame.floor :=
    (List.min?_eq_some_iff.mp lowest).2 _ (mem_floors.mpr ⟨head, by simp, frame, live, rfl⟩)
  refine ⟨floor, _, lowest, ?_, .setFrame live ({ · with floor })⟩
  unfold StoreM.takeOver
  rw [EStateM.bind_of_ok (StoreM.ask_of_ok known), StoreM.changeFrame_of_live live, Int.min_eq_right below]

private theorem passFloor_run (threaded : Threaded store.chainEnds (before ++ after))
    (distinct : (before ++ after).Nodup) (callee : frame.callee = before.getLast?)
    (caller : frame.caller = after.head?) :
    ∃ final, StoreM.passFloor frame store = .ok () final ∧
      Undisturbed FrozenFrame.offFloor store final ∧
      ∀ other, final.floor? other = if after = [] ∧ before.getLast? = some other
        then (store.floors before).min? else store.floor? other := by
  unfold StoreM.passFloor
  cases after with
  | cons next rest =>
    refine ⟨store, ?_, .refl store, fun other => by simp⟩
    rw [caller]
    rfl
  | nil =>
    cases last : before.getLast? with
    | none =>
      refine ⟨store, ?_, .refl store, fun other => by simp⟩
      rw [caller, callee, last]
      rfl
    | some head =>
      obtain ⟨inner, rfl⟩ := List.getLast?_eq_some_iff.mp last
      rw [List.append_nil] at threaded distinct
      obtain ⟨floor, final, lowest, ran, altered⟩ := takeOver_run threaded distinct
      refine ⟨final, ?_, altered.undisturbed fun other frame => ?_, fun other => ?_⟩
      · rw [caller, callee, last]
        exact ran
      · split <;> rfl
      · simp only [floor?, altered.frames, Option.map_map, Function.comp_def, true_and, Option.some.injEq,
          eq_comm (a := head)]
        by_cases same : other = head
        · obtain ⟨frame, live, _⟩ := frame_of_threaded threaded
          simp [same, live, lowest]
        · simp [same]

theorem Represents.registered_iff (valid : Represents store roster)
    (live : store.arena.find? handle = some frame) : frame.isRegistered ↔ handle ∈ roster.heads := by
  constructor
  · intro linked
    apply valid.ring.closed
    rw [ringAt, live]
    exact linked
  · intro within
    obtain ⟨before, after, split⟩ := List.append_of_mem within
    have held := valid.ring.links_eq split
    simp only [ringAt, live, Option.bind_some] at held
    simp [FrozenFrame.isRegistered, held]

theorem Represents.not_mem_heads (valid : Represents store roster)
    (member : before ++ handle :: after ∈ roster.chains) (within : head ∈ before) :
    head ∉ roster.heads := by
  intro led
  obtain ⟨start, led⟩ := Represents.mem_heads_iff.mp led
  have shared := eq_of_shared valid.distinct (List.mem_append_left _ led) member
    (show head ∈ start ++ [head] by simp) (List.mem_append_left _ within)
  have last : (handle :: after).getLast? = some head := by
    have ends := congrArg List.getLast? shared
    simpa [List.getLast?_append, List.getLast?_cons] using ends.symm
  exact (List.nodup_append.mp (valid.chain_distinct member)).2.2 head within head
    (List.mem_of_getLast? last) rfl

private theorem leaveRing_run (valid : Represents store roster)
    (member : before ++ handle :: after ∈ roster.chains)
    (live : store.arena.find? handle = some frame)
    (kept : Undisturbed FrozenFrame.ring store middle) :
    ∃ final, StoreM.leaveRing handle frame middle = .ok () final ∧
      OnRing final (roster.without [handle]).heads := by
  obtain ⟨found, known, callee, caller⟩ := frame_of_threaded (valid.linked _ member)
  obtain rfl : frame = found := Option.some.inj (live.symm.trans known)
  have ring := valid.ring.undisturbed kept.ringAt kept.registered
  obtain ⟨fresh, _⟩ := List.nodup_cons.mp (List.nodup_middle.mp (valid.chain_distinct member))
  have gap := filter_gap fresh
  by_cases linked : frame.isRegistered
  · obtain ⟨start, led⟩ := Represents.mem_heads_iff.mp ((valid.registered_iff live).mp linked)
    have shared := eq_of_shared valid.distinct (List.mem_append_left _ led) member
      (show handle ∈ start ++ [handle] by simp) (by simp)
    obtain ⟨rfl, rfl⟩ : before = start ∧ after = [] := by
      have parts := (List.append_cons_inj_of_notMem
        (fun inside => fresh (List.mem_append_left _ inside))
        (fun inside => fresh (List.mem_append_right _ inside))).mp shared.symm
      exact ⟨parts.1, parts.2.2⟩
    obtain ⟨first, last, split⟩ := List.append_of_mem led
    have now := Roster.heads_eq_of_split split
    have later := Roster.heads_without valid.distinct valid.inhabited split
      (show ∀ gone ∈ [handle], gone ∈ before ++ [handle] by simp)
    have distinct := valid.nodup_heads
    rw [gap, List.append_nil] at later
    rw [now] at ring distinct
    simp only [List.getLast?_append, List.getLast?_singleton, Option.some_or, Option.toList_some,
      List.append_assoc, List.singleton_append] at ring distinct
    rw [later, List.append_assoc]
    unfold StoreM.leaveRing
    rw [if_pos linked, callee, caller]
    cases lower : before.getLast? with
    | none => exact unregister_run ring distinct
    | some head =>
      have other := valid.not_mem_heads member (List.mem_of_getLast? lower)
      obtain ⟨below, liveHead⟩ := Option.isSome_iff_exists.mp ((kept.live_iff head).mpr
        (valid.live_of_mem member (List.mem_append_left _ (List.mem_of_getLast? lower))))
      rw [now] at other
      simp only [List.getLast?_append, List.getLast?_singleton, Option.some_or, Option.toList_some,
        List.append_assoc, List.singleton_append] at other
      exact replaceHead_run ring distinct other liveHead
  · have same : (roster.without [handle]).heads = roster.heads := by
      rcases List.mem_append.mp member with registered | hidden
      · obtain ⟨first, last, split⟩ := List.append_of_mem registered
        rw [Roster.heads_without valid.distinct valid.inhabited split (by simp), gap,
          Roster.heads_eq_of_split split]
        cases after with
        | nil =>
          refine absurd ((valid.registered_iff live).mpr ?_) linked
          exact Represents.mem_heads_iff.mpr ⟨before, registered⟩
        | cons next rest => simp [List.getLast?_cons]
      · exact Roster.heads_without_of_hidden valid.distinct valid.inhabited hidden (by simp)
    refine ⟨middle, ?_, same ▸ ring⟩
    unfold StoreM.leaveRing
    rw [if_neg linked]
    rfl

private theorem takeOut_run (sound : store.arena.Sound) (live : store.arena.find? handle = some frame) :
    ∃ final, StoreM.takeOut handle store = .ok frame final ∧ final.arena.Sound ∧
      (∀ other, final.arena.find? other = if other = handle then none else store.arena.find? other) ∧
      final.anchor = store.anchor ∧ final.registered = store.registered := by
  obtain ⟨arena, removed⟩ := Arena.remove_of_live sound live
  exact ⟨{ store with arena }, StoreM.takeOut_eq_ok.mpr ⟨arena, removed, rfl⟩, sound.remove removed,
    Arena.find?_remove removed, rfl, rfl⟩

/-- What a store is after a frame has left it: the others keep their contents, and their floors but
for a new head. -/
structure Detached (store : Store) (before : List Handle) (handle : Handle) (after : List Handle)
    (final : Store) : Prop where
  gone : final.arena.find? handle = none
  content : ∀ other, other ≠ handle →
    (final.arena.find? other).map FrozenFrame.content = (store.arena.find? other).map FrozenFrame.content
  floor : ∀ other, other ≠ handle → final.floor? other =
    if after = [] ∧ before.getLast? = some other then (store.floors before).min? else store.floor? other

theorem detach_run (valid : Represents store roster)
    (member : before ++ handle :: after ∈ roster.chains)
    (live : store.arena.find? handle = some frame) :
    ∃ removed final, StoreM.detach handle store = .ok removed final ∧
      removed.content = frame.content ∧ Represents final (roster.without [handle]) ∧
      Detached store before handle after final := by
  obtain ⟨found, known, callee, caller⟩ := frame_of_threaded (valid.linked _ member)
  obtain rfl : frame = found := Option.some.inj (live.symm.trans known)
  obtain ⟨fresh, distinct⟩ := List.nodup_cons.mp (List.nodup_middle.mp (valid.chain_distinct member))
  -- the neighbours close up
  obtain ⟨one, ranOne, closed⟩ := bypass_run (valid.linked _ member) live
  have ends := chainEnds_closing closed
  have threaded : Threaded one.chainEnds (before ++ after) :=
    (valid.linked _ member).remove distinct fun other _ => ends other
  -- the floor passes to a new head
  obtain ⟨two, ranTwo, kept, passed⟩ := passFloor_run threaded distinct callee caller
  -- the ring closes up
  have still : Undisturbed FrozenFrame.ring store two :=
    (closed.undisturbed fun _ _ => rfl).trans (kept.coarsen FrozenFrame.ring (·.ring) fun _ => rfl)
  obtain ⟨three, ranThree, ring⟩ := leaveRing_run valid member live still
  have agrees := StoreM.leaveRing_agrees handle frame two () three ranThree
  -- the slot is emptied
  have content : Agrees FrozenFrame.content store three :=
    ((closed.undisturbed fun _ _ => rfl).toAgrees.trans
      (kept.toAgrees.coarsen FrozenFrame.content FrozenFrame.content fun _ => rfl)).trans
      (agrees.coarsen FrozenFrame.content FrozenFrame.content fun _ => rfl)
  obtain ⟨removed, live', same⟩ := content.forward live
  obtain ⟨final, ranFour, sound, found, anchor, registered⟩ :=
    takeOut_run (content.sound valid.sound) live'
  have others : ∀ other, other ≠ handle → final.arena.find? other = three.arena.find? other := by
    intro other different
    rw [found, if_neg different]
  refine ⟨removed, final, ?_, same, ?_, ?_⟩
  · unfold StoreM.detach
    rw [EStateM.bind_of_ok (StoreM.askFrame_of_live live), EStateM.bind_of_ok ranOne,
      EStateM.bind_of_ok ranTwo, EStateM.bind_of_ok ranThree]
    exact ranFour
  · apply valid.left member sound
    · intro other
      by_cases same : other = handle
      · simp [same, found]
      · rw [others other same, content.live_iff]
        simp [same]
    · intro other different
      have middle := (kept.toAgrees.coarsen (fun frame => Ends.mk frame.callee frame.caller)
        (fun frame => ⟨frame.callee, frame.caller⟩) fun _ => rfl).frames other
      rw [← ends other]
      unfold chainEnds at middle ⊢
      rw [others other different, ← middle]
      exact agrees.chainEnds other
    · refine ring.undisturbed (fun node => ?_) registered
      cases node with
      | anchor => exact congrArg some anchor
      | head other =>
        by_cases same : other = handle
        · have away : handle ∉ (roster.without [handle]).heads := by
            intro within
            have inside := Represents.heads_subset within
            rw [Roster.members_without, List.mem_filter] at inside
            simp at inside
          have unlinked : three.ringAt (.head handle) = none := by
            cases linked : three.ringAt (.head handle) with
            | none => rfl
            | some links => exact absurd (ring.closed handle (by simp [linked])) away
          rw [same, unlinked, ringAt, found, if_pos rfl]
          rfl
        · simp only [ringAt, others other same]
  · refine ⟨by simp [found], fun other different => ?_, fun other different => ?_⟩
    · rw [others other different]
      exact content.frames other
    · have floor := (agrees.coarsen FrozenFrame.floor (·.floor) fun _ => rfl).frames other
      have early : Undisturbed FrozenFrame.floor store one := closed.undisturbed fun _ _ => rfl
      have same : one.floor? = store.floor? := funext early.frames
      have known := passed other
      simp only [floors, same] at known ⊢
      rw [floor?, others other different, floor]
      exact known

theorem live_of_detach {removed : FrozenFrame}
    (done : StoreM.detach handle store = .ok removed final) :
    ∃ frame, store.arena.find? handle = some frame := by
  unfold StoreM.detach at done
  obtain ⟨frame, _, asked, _⟩ := EStateM.bind_eq_ok.mp done
  exact ⟨frame, StoreM.frame_eq_ok.mp (StoreM.ask_eq_ok.mp asked).1⟩

end Store
end CallStacks.Frozen
