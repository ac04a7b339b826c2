import Mathlib.Data.List.Nodup
import CallStacks.Proofs.Roster
import CallStacks.Proofs.StoreFrames

/-! What registration does to the ring. Each operation edits the links of at most three places, and
any of them may be the anchor, so the edits are followed at places of the ring and not at frames. -/

namespace CallStacks.Frozen

namespace Store

variable {store middle final : Store} {heads before after : List Handle} {handle : Handle}
  {frame : FrozenFrame} {node : RingNode} {links : RingLinks} {held : Option RingLinks}

structure Relinked (node : RingNode) (held : Option RingLinks) (store final : Store) : Prop where
  ringAt : ∀ other, final.ringAt other = if other = node then held else store.ringAt other
  live : ∀ {handle frame}, store.arena.find? handle = some frame →
    ∃ after, final.arena.find? handle = some after
  registered : final.registered = store.registered

structure Edited (node : RingNode) (change : RingLinks → RingLinks) (store final : Store) : Prop where
  ringAt : ∀ other, final.ringAt other =
    (store.ringAt other).map fun links => if other = node then change links else links
  registered : final.registered = store.registered

theorem Edited.anchor {change : RingLinks → RingLinks} (edited : Edited node change store final) :
    final.anchor = if node = .anchor then change store.anchor else store.anchor := by
  have same := edited.ringAt .anchor
  simpa [Store.ringAt, eq_comm] using same

theorem Relinked.anchor (relinked : Relinked (.head handle) held store final) :
    final.anchor = store.anchor := by
  have same := relinked.ringAt .anchor
  simpa [Store.ringAt] using same

theorem relinked_setFrame (live : store.arena.find? handle = some frame) (changed : FrozenFrame) :
    Relinked (.head handle) changed.ring store (store.setFrame handle changed) := by
  refine ⟨fun other => ?_, fun {other frame} live' => ?_, rfl⟩
  · cases other with
    | anchor => rfl
    | head other =>
      simp only [Store.ringAt, find?_setFrame live, RingNode.head.injEq]
      split <;> simp
  · rw [find?_setFrame live]
    split
    · exact ⟨changed, rfl⟩
    · exact ⟨frame, live'⟩

theorem changeLinks_run (known : store.ringAt node = some links) (change : RingLinks → RingLinks) :
    ∃ final, StoreM.changeLinks node change store = .ok () final ∧
      Edited node change store final := by
  have look : StoreM.ask (·.links node) store = .ok links store :=
    StoreM.ask_of_ok (links_eq_ok.mpr known)
  cases node with
  | anchor =>
    refine ⟨{ store with anchor := change links }, ?_, ⟨fun other => ?_, rfl⟩⟩
    · unfold StoreM.changeLinks
      rw [EStateM.bind_of_ok look]
      exact EStateM.modify_eq_ok.mpr rfl
    · obtain rfl := Option.some.inj known
      cases other <;> simp [Store.ringAt]
  | head handle =>
    obtain ⟨frame, live, _⟩ := Option.bind_eq_some_iff.mp known
    have relinked := relinked_setFrame live { frame with ring := some (change links) }
    refine ⟨_, ?_, ⟨fun other => ?_, relinked.registered⟩⟩
    · unfold StoreM.changeLinks
      rw [EStateM.bind_of_ok look]
      exact StoreM.changeFrame_of_live live _
    · rw [relinked.ringAt]
      by_cases same : other = .head handle
      · simp [same, known]
      · simp [same]

theorem changeRing_run (live : store.arena.find? handle = some frame) (held : Option RingLinks) :
    ∃ final, StoreM.changeFrame handle ({ · with ring := held }) store = .ok () final ∧
      Relinked (.head handle) held store final :=
  ⟨_, StoreM.changeFrame_of_live live _, relinked_setFrame live { frame with ring := held }⟩

theorem countDown_run {count : Nat} (positive : store.registered = count + 1) :
    StoreM.countDown store = .ok () { store with registered := count } := by
  unfold StoreM.countDown
  rw [EStateM.bind_of_ok (EStateM.get_eq_ok.mpr ⟨rfl, rfl⟩), positive]
  exact EStateM.modify_eq_ok.mpr rfl

theorem OnRing.ringAt_ofHandle? {other : Option Handle} (ring : OnRing store heads)
    (within : ∀ handle, other = some handle → handle ∈ heads) :
    ∃ links, store.ringAt (.ofHandle? other) = some links := by
  cases other with
  | none => exact ⟨store.anchor, rfl⟩
  | some handle =>
    obtain ⟨before, after, rfl⟩ := List.append_of_mem (within handle rfl)
    exact ⟨_, ring.links_eq rfl⟩

private theorem onRing_push (ring : OnRing store heads) (distinct : (handle :: heads).Nodup)
    (prev : final.anchor.prev = if heads.head? = none then .head handle else store.anchor.prev)
    (next : final.anchor.next = .head handle)
    (placed : final.ringAt (.head handle) = some ⟨.ofHandle? heads.head?, .anchor⟩)
    (others : ∀ other, other ≠ handle → final.ringAt (.head other) =
      (store.ringAt (.head other)).map fun links =>
        if heads.head? = some other then { links with prev := .head handle } else links)
    (registered : final.registered = store.registered + 1) : OnRing final (handle :: heads) := by
  obtain ⟨fresh, apart⟩ := List.nodup_cons.mp distinct
  refine ⟨?_, ?_, ?_, ?_, ?_⟩
  · apply ring.threaded.push apart
    · simp [ringEnds, placed, RingLinks.ends]
    · intro member within
      have different : member ≠ handle := fun same => fresh (same ▸ within)
      simp only [ringEnds, others member different]
      cases store.ringAt (.head member) with
      | none => rfl
      | some links => by_cases first : heads.head? = some member <;> simp [RingLinks.ends, first]
  · rw [next]
    rfl
  · rw [prev]
    cases heads with
    | nil => rfl
    | cons first rest => simpa using ring.last
  · intro other linked
    by_cases same : other = handle
    · exact same ▸ List.mem_cons_self
    · rw [others other same, Option.isSome_map] at linked
      exact List.mem_cons_of_mem _ (ring.closed other linked)
  · rw [registered, ring.counted, List.length_cons]

theorem hang_run (ring : OnRing store heads) (distinct : (handle :: heads).Nodup)
    (live : store.arena.find? handle = some frame) :
    ∃ final, StoreM.hang handle store = .ok () final ∧ OnRing final (handle :: heads) := by
  obtain ⟨fresh, _⟩ := List.nodup_cons.mp distinct
  have first := ring.anchor_next
  have apart : RingNode.ofHandle? heads.head? ≠ .head handle :=
    fun same => fresh (List.mem_of_head? (RingNode.ofHandle?_eq_head_iff.mp same))
  obtain ⟨one, ranOne, placed⟩ := changeRing_run live (some ⟨store.anchor.next, .anchor⟩)
  have known : ∃ links, one.ringAt store.anchor.next = some links := by
    rw [placed.ringAt, first, if_neg apart]
    exact ring.ringAt_ofHandle? fun _ => List.mem_of_head?
  obtain ⟨links, known⟩ := known
  obtain ⟨two, ranTwo, edited⟩ := changeLinks_run known ({ · with prev := .head handle })
  refine ⟨{ two with
    anchor := { two.anchor with next := .head handle }
    registered := two.registered + 1 }, ?_, ?_⟩
  · unfold StoreM.hang
    rw [EStateM.bind_of_ok (EStateM.get_eq_ok.mpr ⟨rfl, rfl⟩)]
    dsimp only
    rw [EStateM.bind_of_ok ranOne, EStateM.bind_of_ok ranTwo]
    exact EStateM.modify_eq_ok.mpr rfl
  · apply onRing_push ring distinct
    · simp only [edited.anchor, first, RingNode.ofHandle?_eq_anchor_iff, placed.anchor]
      split <;> rfl
    · rfl
    · change two.ringAt (.head handle) = _
      rw [edited.ringAt, placed.ringAt, first]
      simp [Ne.symm apart]
    · intro other different
      change two.ringAt (.head other) = _
      rw [edited.ringAt, placed.ringAt, first, if_neg (by simpa using different)]
      simp only [eq_comm (a := RingNode.head other), RingNode.ofHandle?_eq_head_iff]
    · rw [edited.registered, placed.registered]

/-- Links of the places on either side, turned to face other places. -/
private def facing (before after : Option Handle) (toNext toPrev other : RingNode)
    (links : RingLinks) : RingLinks :=
  ⟨if other = .ofHandle? before then toNext else links.next,
    if other = .ofHandle? after then toPrev else links.prev⟩

private theorem facing_run {one other : Option Handle} (toNext toPrev : RingNode)
    (knownOne : ∃ links, store.ringAt (.ofHandle? one) = some links)
    (knownOther : ∃ links, store.ringAt (.ofHandle? other) = some links) :
    ∃ middle final,
      StoreM.changeLinks (.ofHandle? one) ({ · with next := toNext }) store = .ok () middle ∧
      StoreM.changeLinks (.ofHandle? other) ({ · with prev := toPrev }) middle = .ok () final ∧
      (∀ place, final.ringAt place = (store.ringAt place).map (facing one other toNext toPrev place)) ∧
      final.registered = store.registered := by
  obtain ⟨links, known⟩ := knownOne
  obtain ⟨middle, ranOne, edited⟩ := changeLinks_run known ({ · with next := toNext })
  obtain ⟨links', known'⟩ := knownOther
  have still := edited.ringAt (.ofHandle? other)
  rw [known', Option.map_some] at still
  obtain ⟨final, ranTwo, edited'⟩ := changeLinks_run still ({ · with prev := toPrev })
  refine ⟨middle, final, ranOne, ranTwo, fun place => ?_, edited'.registered.trans edited.registered⟩
  rw [edited'.ringAt, edited.ringAt, Option.map_map]
  congr 1
  funext links
  simp only [facing, Function.comp_apply]
  split <;> split <;> rfl

private theorem anchor_of_facing {one other : Option Handle} {toNext toPrev : RingNode}
    (faced : final.ringAt .anchor =
      (store.ringAt .anchor).map (facing one other toNext toPrev .anchor)) :
    final.anchor = facing one other toNext toPrev .anchor store.anchor := by
  simpa [Store.ringAt] using faced

private theorem onRing_remove (ring : OnRing store (before ++ handle :: after))
    (distinct : (before ++ handle :: after).Nodup)
    (gone : final.ringAt (.head handle) = none)
    (faced : ∀ place, place ≠ .head handle → final.ringAt place =
      (store.ringAt place).map
        (facing before.getLast? after.head? (.ofHandle? after.head?) (.ofHandle? before.getLast?) place))
    (registered : final.registered + 1 = store.registered) : OnRing final (before ++ after) := by
  obtain ⟨fresh, apart⟩ := List.nodup_cons.mp (List.nodup_middle.mp distinct)
  have anchor := anchor_of_facing (faced .anchor (by simp))
  refine ⟨?_, ?_, ?_, ?_, ?_⟩
  · apply ring.threaded.remove apart
    intro member within
    have different : member ≠ handle := fun same => fresh (same ▸ within)
    simp only [ringEnds, faced (.head member) (by simpa using different)]
    cases store.ringAt (.head member) with
    | none => rfl
    | some links =>
      simp only [Option.map_some, RingLinks.ends, facing, eq_comm (a := RingNode.head member),
        RingNode.ofHandle?_eq_head_iff, Option.some.injEq, Ends.mk.injEq]
      constructor <;> split <;> simp
  · simp only [anchor, facing, eq_comm (a := RingNode.anchor), RingNode.ofHandle?_eq_anchor_iff]
    cases before with
    | nil => simp
    | cons first rest => simpa using ring.first
  · simp only [anchor, facing, eq_comm (a := RingNode.anchor), RingNode.ofHandle?_eq_anchor_iff]
    have last := ring.last
    cases after with
    | nil => simp
    | cons first rest =>
      rw [if_neg (by simp), last]
      simp
  · intro other linked
    by_cases same : other = handle
    · rw [same, gone] at linked
      cases linked
    · rw [faced (.head other) (by simpa using same), Option.isSome_map] at linked
      have within := ring.closed other linked
      simp only [List.mem_append, List.mem_cons] at within ⊢
      rcases within with within | within | within
      · exact .inl within
      · exact absurd within same
      · exact .inr within
  · have counted := ring.counted
    simp only [List.length_append, List.length_cons] at counted ⊢
    omega

private theorem neighbour_links (ring : OnRing store (before ++ handle :: after)) :
    (∃ links, store.ringAt (.ofHandle? before.getLast?) = some links) ∧
      ∃ links, store.ringAt (.ofHandle? after.head?) = some links :=
  ⟨ring.ringAt_ofHandle? fun _ last => List.mem_append_left _ (List.mem_of_getLast? last),
    ring.ringAt_ofHandle? fun _ first =>
      List.mem_append_right _ (List.mem_cons_of_mem _ (List.mem_of_head? first))⟩

theorem unregister_run (ring : OnRing store (before ++ handle :: after))
    (distinct : (before ++ handle :: after).Nodup) :
    ∃ final, StoreM.unregister handle store = .ok () final ∧ OnRing final (before ++ after) := by
  have held := ring.links_eq rfl
  obtain ⟨frame, live, linked⟩ := Option.bind_eq_some_iff.mp held
  obtain ⟨left, right⟩ := neighbour_links ring
  obtain ⟨one, two, ranOne, ranTwo, faced, registered⟩ :=
    facing_run (.ofHandle? after.head?) (.ofHandle? before.getLast?) left right
  have known := faced (.head handle)
  rw [held, Option.map_some] at known
  obtain ⟨frame', live', _⟩ := Option.bind_eq_some_iff.mp known
  obtain ⟨three, ranThree, gone⟩ := changeRing_run live' none
  have counted : three.registered = (before ++ after).length + 1 := by
    rw [gone.registered, registered, ring.counted]
    simp only [List.length_append, List.length_cons]
    omega
  refine ⟨{ three with registered := (before ++ after).length }, ?_, ?_⟩
  · unfold StoreM.unregister
    rw [EStateM.bind_of_ok (StoreM.askFrame_of_live live), linked]
    dsimp only
    rw [EStateM.bind_of_ok ranOne, EStateM.bind_of_ok ranTwo, EStateM.bind_of_ok ranThree]
    exact countDown_run counted
  · apply onRing_remove ring distinct
    · change three.ringAt (.head handle) = none
      rw [gone.ringAt, if_pos rfl]
    · intro place different
      change three.ringAt place = _
      rw [gone.ringAt, if_neg different]
      exact faced place
    · rw [ring.counted]
      simp only [List.length_append, List.length_cons]
      omega

private theorem side_ne {new : Handle} {side : Option Handle}
    (distinct : (before ++ handle :: after).Nodup) (other : new ∉ before ++ handle :: after)
    (within : ∀ member, side = some member → member ∈ before ++ after) :
    RingNode.ofHandle? side ≠ .head handle ∧ RingNode.ofHandle? side ≠ .head new := by
  obtain ⟨fresh, _⟩ := List.nodup_cons.mp (List.nodup_middle.mp distinct)
  simp only [ne_eq, RingNode.ofHandle?_eq_head_iff]
  refine ⟨fun same => fresh (within _ same), fun same => other ?_⟩
  have inside := within _ same
  simp only [List.mem_append, List.mem_cons] at inside ⊢
  exact inside.imp id .inr

private theorem onRing_replace {new : Handle} (ring : OnRing store (before ++ handle :: after))
    (distinct : (before ++ handle :: after).Nodup) (other : new ∉ before ++ handle :: after)
    (gone : final.ringAt (.head handle) = none)
    (placed : final.ringAt (.head new) =
      some ⟨.ofHandle? after.head?, .ofHandle? before.getLast?⟩)
    (faced : ∀ place, place ≠ .head handle → place ≠ .head new → final.ringAt place =
      (store.ringAt place).map
        (facing before.getLast? after.head? (.head new) (.head new) place))
    (registered : final.registered = store.registered) : OnRing final (before ++ new :: after) := by
  obtain ⟨_, apart⟩ := List.nodup_cons.mp (List.nodup_middle.mp distinct)
  have anchor := anchor_of_facing (faced .anchor (by simp) (by simp))
  refine ⟨?_, ?_, ?_, ?_, ?_⟩
  · apply ring.threaded.replace apart
    · simp [ringEnds, placed, RingLinks.ends]
    · intro member within
      obtain ⟨notOld, notNew⟩ : RingNode.head member ≠ .head handle ∧ RingNode.head member ≠ .head new :=
        side_ne distinct other fun _ same => Option.some.inj same ▸ within
      simp only [ringEnds, faced (.head member) notOld notNew]
      cases store.ringAt (.head member) with
      | none => rfl
      | some links =>
        simp only [Option.map_some, RingLinks.ends, facing, eq_comm (a := RingNode.head member),
          RingNode.ofHandle?_eq_head_iff, Option.some.injEq, Ends.mk.injEq]
        constructor <;> split <;> simp
  · simp only [anchor, facing, eq_comm (a := RingNode.anchor), RingNode.ofHandle?_eq_anchor_iff]
    cases before with
    | nil => simp
    | cons first rest => simpa using ring.first
  · simp only [anchor, facing, eq_comm (a := RingNode.anchor), RingNode.ofHandle?_eq_anchor_iff]
    have last := ring.last
    cases after with
    | nil => simp
    | cons first rest =>
      rw [if_neg (by simp), last]
      simp
  · intro place linked
    by_cases isNew : place = new
    · simp [isNew]
    by_cases isOld : place = handle
    · rw [isOld, gone] at linked
      cases linked
    · rw [faced (.head place) (by simpa using isOld) (by simpa using isNew), Option.isSome_map] at linked
      have within := ring.closed place linked
      simp only [List.mem_append, List.mem_cons] at within ⊢
      rcases within with within | within | within
      · exact .inl within
      · exact absurd within isOld
      · exact .inr (.inr within)
  · have counted := ring.counted
    simp only [List.length_append, List.length_cons] at counted ⊢
    omega

theorem replaceHead_run {new : Handle} (ring : OnRing store (before ++ handle :: after))
    (distinct : (before ++ handle :: after).Nodup) (other : new ∉ before ++ handle :: after)
    (live : store.arena.find? new = some frame) :
    ∃ final, StoreM.replaceHead handle new store = .ok () final ∧
      OnRing final (before ++ new :: after) := by
  have held := ring.links_eq rfl
  obtain ⟨old, liveOld, linked⟩ := Option.bind_eq_some_iff.mp held
  have different : new ≠ handle := fun same => other (same ▸ by simp)
  obtain ⟨left, right⟩ := neighbour_links ring
  obtain ⟨one, ranOne, gone⟩ := changeRing_run liveOld none
  obtain ⟨frame', live'⟩ := gone.live live
  obtain ⟨two, ranTwo, placed⟩ := changeRing_run live'
    (some ⟨.ofHandle? after.head?, .ofHandle? before.getLast?⟩)
  have stays : ∀ place, place ≠ .head handle → place ≠ .head new →
      two.ringAt place = store.ringAt place := by
    intro place notOld notNew
    rw [placed.ringAt, if_neg notNew, gone.ringAt, if_neg notOld]
  obtain ⟨leftOld, leftNew⟩ := side_ne distinct other
    fun _ last => List.mem_append_left _ (List.mem_of_getLast? last)
  obtain ⟨rightOld, rightNew⟩ := side_ne distinct other
    fun _ first => List.mem_append_right _ (List.mem_of_head? first)
  rw [← stays _ leftOld leftNew] at left
  rw [← stays _ rightOld rightNew] at right
  obtain ⟨three, four, ranThree, ranFour, faced, registered⟩ :=
    facing_run (.head new) (.head new) left right
  refine ⟨four, ?_, ?_⟩
  · unfold StoreM.replaceHead
    rw [EStateM.bind_of_ok (StoreM.askFrame_of_live liveOld), linked]
    dsimp only
    rw [EStateM.bind_of_ok ranOne, EStateM.bind_of_ok ranTwo, EStateM.bind_of_ok ranThree]
    exact ranFour
  · apply onRing_replace ring distinct other
    · rw [faced, placed.ringAt, if_neg (by simpa using Ne.symm different), gone.ringAt, if_pos rfl]
      rfl
    · rw [faced, placed.ringAt, if_pos rfl]
      simp [facing, Ne.symm leftNew, Ne.symm rightNew]
    · intro place notOld notNew
      rw [faced, stays place notOld notNew]
    · rw [registered, placed.registered, gone.registered]

end Store
end CallStacks.Frozen
