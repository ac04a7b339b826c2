import CallStacks.Proofs.ChainIndependence
import CallStacks.Proofs.RecordedPlaces
import CallStacks.Proofs.RosterMoves

/-! The store refines the plain machine of chains. What a program can ask shows the roster, the moves of the
machine can be made, every operation is such a move, and a chain that an operation does not concern keeps its
frames as they are. -/

namespace CallStacks.Frozen.Freezer
open Store

variable {freezer after : Freezer} {roster : Roster} {operation : Operation} {chain before above : List Handle}
  {handle head : Handle}

/-- The answers of a freezer whose chains are those of a roster. -/
structure Shows (freezer : Freezer) (roster : Roster) : Prop where
  distinct : roster.members.Nodup
  inhabited : ∀ chain ∈ roster.chains, chain ≠ []
  live : ∀ handle, handle ∈ roster.members ↔ ∃ frame, freezer.frame handle = .ok frame
  heads : freezer.store.heads = .ok (roster.registered.filterMap List.getLast?)
  members : ∀ before head, before ++ [head] ∈ roster.chains →
    freezer.chainMembers head = .ok (before ++ [head]).reverse
  led : ∀ before head, before ++ [head] ∈ roster.chains → ∀ handle ∈ before ++ [head],
    freezer.chainHead handle = .ok head
  registered : ∀ before head, before ++ [head] ∈ roster.chains → ∃ shown, freezer.isRegistered head = .ok shown ∧
    (shown = true ↔ before ++ [head] ∈ roster.registered)

/-- The moves that can be made from a roster. A frame can be resumed wherever its return address has a place. -/
structure Offers (freezer : Freezer) (roster : Roster) : Prop where
  register : ∀ before head, before ++ [head] ∈ roster.hidden → ∃ after, freezer.register head = .ok after
  unregister : ∀ before head, before ++ [head] ∈ roster.registered → ∃ after, freezer.unregister head = .ok after
  delete : ∀ handle ∈ roster.members, ∃ after, freezer.delete handle = .ok after
  deleteChain : ∀ before head, before ++ [head] ∈ roster.chains →
    ∃ after, freezer.deleteChain head = .ok ((before ++ [head]).length, after)
  resume : ∀ handle frame value landing memory, freezer.frame handle = .ok frame →
    landing.sp.toNat + frame.layout.returnOffset.toNat < UInt64.size →
      ∃ answer, freezer.resume handle value landing memory = .ok answer

private theorem shows_of_valid (valid : Valid freezer.store roster) : freezer.Shows roster := by
  refine ⟨valid.distinct, valid.inhabited, fun handle => ?_, valid.heads_eq, fun before head member => ?_,
    fun before head member handle within => ?_, fun before head member => ?_⟩
  · rw [valid.live, Option.isSome_iff_exists]
    exact exists_congr fun frame => StoreM.frame_eq_ok.symm
  · rw [List.reverse_append]
    exact chainMembers_eq (valid.linked _ member) (valid.chain_distinct member)
  · obtain ⟨inner, last, split, led⟩ := valid.chainHead_of_member member within
    obtain ⟨_, same⟩ := List.append_inj' split rfl
    cases same
    exact led
  · exact isRegistered_run valid member

theorem register_run (valid : Valid freezer.store roster) (hidden : before ++ [head] ∈ roster.hidden) :
    ∃ after, freezer.register head = .ok after := by
  have member := List.mem_append_right roster.registered hidden
  obtain ⟨frame, live, _, caller⟩ := frame_of_threaded (valid.linked _ member)
  have unlinked : head ∉ roster.heads := by
    intro within
    obtain ⟨start, inside⟩ := Represents.mem_heads_iff.mp within
    have registered : head ∈ roster.registered.flatten := List.mem_flatten.mpr ⟨_, inside, by simp⟩
    exact Roster.not_hidden_of_registered valid.distinct registered (List.mem_flatten.mpr ⟨_, hidden, by simp⟩)
  have off : ¬ frame.isRegistered := fun linked => unlinked ((valid.registered_iff live).mp linked)
  obtain ⟨final, ran, _⟩ := hang_run valid.ring (List.nodup_cons.mpr ⟨unlinked, valid.nodup_heads⟩) live
  have done : StoreM.register head freezer.store = .ok () final := by
    unfold StoreM.register
    rw [EStateM.bind_of_ok (StoreM.askFrame_of_live live), if_neg (by simp [FrozenFrame.isHead, caller]),
      if_neg off]
    exact ran
  refine ⟨{ freezer with store := final }, ?_⟩
  unfold Freezer.register
  rw [run_eq_ok.mpr ⟨final, done, rfl⟩]
  rfl

theorem unregister_run (valid : Valid freezer.store roster) (registered : before ++ [head] ∈ roster.registered) :
    ∃ after, freezer.unregister head = .ok after := by
  obtain ⟨first, last, split⟩ := List.append_of_mem registered
  have ring := valid.ring
  have distinct := valid.nodup_heads
  rw [Roster.heads_eq_of_split split] at ring distinct
  simp only [List.getLast?_append, List.getLast?_singleton, Option.some_or, Option.toList_some,
    List.append_assoc, List.singleton_append] at ring distinct
  obtain ⟨final, done, _⟩ := Store.unregister_run ring distinct
  refine ⟨{ freezer with store := final }, ?_⟩
  unfold Freezer.unregister
  rw [run_eq_ok.mpr ⟨final, done, rfl⟩]
  rfl

private theorem delete_run (valid : Valid freezer.store roster) (within : handle ∈ roster.members) :
    ∃ after, freezer.delete handle = .ok after := by
  obtain ⟨frame, live⟩ := Option.isSome_iff_exists.mp ((valid.live handle).mp within)
  obtain ⟨before, after, member, _⟩ := valid.place live
  obtain ⟨removed, final, done, _⟩ := detach_spec valid member live
  refine ⟨{ freezer with store := final, deleted := freezer.deleted + 1 }, ?_⟩
  unfold Freezer.delete
  rw [run_eq_ok.mpr ⟨final, done, rfl⟩]
  rfl

private theorem deleteChain_run (valid : Valid freezer.store roster) (member : before ++ [head] ∈ roster.chains) :
    ∃ after, freezer.deleteChain head = .ok ((before ++ [head]).length, after) := by
  have listed := chainMembers_eq (valid.linked _ member) (valid.chain_distinct member)
  obtain ⟨final, dropped, _⟩ := detachAll_spec valid (valid.chain_distinct member)
    fun other within => List.mem_flatten.mpr ⟨_, member, within⟩
  have done : (do
      let members ← StoreM.ask (·.chainMembers head)
      members.reverse.forM fun member => discard (StoreM.detach member)
      return members.length : StoreM Nat) freezer.store = .ok (before ++ [head]).length final := by
    have turned : (head :: before.reverse).reverse = before ++ [head] := by simp
    rw [EStateM.bind_of_ok (StoreM.ask_of_ok listed), turned, EStateM.bind_of_ok dropped]
    exact EStateM.pure_eq_ok.mpr ⟨by simp, rfl⟩
  refine ⟨{ freezer with
    store := final
    deleted := freezer.deleted + UInt64.ofNat (before ++ [head]).length }, ?_⟩
  unfold Freezer.deleteChain
  rw [run_eq_ok.mpr ⟨final, done, rfl⟩]
  rfl

theorem prepare_live {frame : FrozenFrame} (reachable : Reachable freezer) (sp : Word)
    (live : freezer.store.arena.find? handle = some frame) :
    ∃ removed final, StoreM.prepare handle sp freezer.store = .ok removed final ∧ removed.layout = frame.layout := by
  obtain ⟨roster, _, valid⟩ := reachable.history
  obtain ⟨before, after, member, _⟩ := valid.place live
  obtain ⟨removed, final, prepared⟩ := prepare_run sp valid member fun other _ frame held =>
    (reachable.trimmed other frame held).ready
  exact ⟨removed, final, prepared, ((prepare_spec valid prepared).removed_settled live).1⟩

theorem resume_run {frame : FrozenFrame} (reachable : Reachable freezer) (value : ResumeValue) (landing : Landing)
    (memory : Memory) (live : freezer.store.arena.find? handle = some frame)
    (room : landing.sp.toNat + frame.layout.returnOffset.toNat < UInt64.size) :
    ∃ answer, freezer.resume handle value landing memory = .ok answer := by
  obtain ⟨removed, final, prepared, layout⟩ := prepare_live reachable landing.sp live
  obtain ⟨⟨reloads, finish, last⟩, spliced⟩ := FrozenFrame.splice_run value landing memory
    (layout ▸ (reachable.trimmed handle frame live).closed) (layout ▸ room)
  refine ⟨(⟨reloads, finish, last⟩, { freezer with store := final, restored := freezer.restored + 1 }), ?_⟩
  unfold Freezer.resume
  rw [run_eq_ok.mpr ⟨final, prepared, rfl⟩]
  simp only [spliced, CallStacks.Failure.ofStop, bind, Except.bind]
  rfl

private theorem offers_of_reachable (reachable : Reachable freezer) (valid : Valid freezer.store roster) :
    freezer.Offers roster where
  register _ _ hidden := register_run valid hidden
  unregister _ _ registered := unregister_run valid registered
  delete _ within := delete_run valid within
  deleteChain _ _ member := deleteChain_run valid member
  resume _ _ value landing memory live room :=
    resume_run reachable value landing memory (StoreM.frame_eq_ok.mp live) room

private theorem cuts_of_gone (valid : Valid freezer.store roster) (member : before ++ handle :: above ∈ roster.chains) :
    roster.Cuts (before ++ handle :: above) (before ++ above) (roster.without [handle]) := by
  obtain ⟨fresh, _⟩ := List.nodup_cons.mp (List.nodup_middle.mp (valid.chain_distinct member))
  exact Roster.cuts_without valid.distinct valid.inhabited member (by simp) (filter_gap fresh)

/-- Every operation is a move of the plain machine, and leaves alone the chains that it does not concern. -/
theorem perform_moves (valid : Valid freezer.store roster) (done : freezer.perform operation = .ok after) :
    ∃ next, roster.Moves operation next ∧ Valid after.store next ∧
      ∀ chain ∈ roster.chains, operation.Elsewhere chain → Unaltered chain freezer.store after.store := by
  obtain ⟨ran, _⟩ := perform_ran done
  have kept {chain : List Handle} (same : after.store = freezer.store) :
      Unaltered chain freezer.store after.store := fun _ _ => by rw [same]
  cases operation with
  | capture memory place frames limit =>
    obtain ⟨visited, capture, answer, walked, stored⟩ := ran
    obtain ⟨handles, _, installed, valid'⟩ := install_valid valid (Capture.fresh_of_walk walked) stored
    have fresh : ∀ handle ∈ handles, handle ∉ roster.members := by
      intro handle within member
      have live := (valid.live handle).mp member
      rw [installed.fresh handle within] at live
      cases live
    rw [Roster.add_eq] at valid'
    refine ⟨_, .capture handles ?_ ?_ fresh, valid', fun chain member _ other within => ?_⟩
    · rw [installed.held.length_eq, ← (Capture.tracks_of_walk walked).1.size, Capture.frames, List.length_map,
        Array.length_toList]
    · by_cases none : handles = []
      · simp [none]
      · apply valid'.chain_distinct
        simp [Roster.chains, remnant, none]
    · rw [installed.others other fun new => fresh other new (List.mem_flatten.mpr ⟨chain, member, within⟩)]
  | register head =>
    obtain ⟨⟨before, hidden⟩, valid'⟩ := register_spec valid ran
    obtain ⟨first, last, split⟩ := List.append_of_mem hidden
    rw [Roster.reveal_eq valid.distinct split] at valid'
    exact ⟨_, .register split, valid', fun _ _ _ other _ => (StoreM.register_agrees head _ _ _ ran).frames other⟩
  | unregister head =>
    obtain ⟨⟨before, registered⟩, valid'⟩ := unregister_spec valid ran
    obtain ⟨first, last, split⟩ := List.append_of_mem registered
    rw [Roster.conceal_eq valid.distinct split] at valid'
    exact ⟨_, .unregister split, valid', fun _ _ _ other _ => (StoreM.unregister_agrees head _ _ _ ran).frames other⟩
  | delete handle =>
    obtain ⟨removed, ran⟩ := ran
    obtain ⟨before, above, member, valid', _⟩ := detached_of_detach valid ran
    exact ⟨_, .delete (cuts_of_gone valid member), valid', fun chain inside elsewhere =>
      (detach_unaltered valid inside elsewhere ran).2.2⟩
  | deleteChain head =>
    obtain ⟨members, listed, ran⟩ := ran
    obtain ⟨before, above, member, turned, valid'⟩ := detachAll_of_chainMembers valid listed ran
    rw [turned] at ran
    have part : (before ++ [head]) ++ above = before ++ head :: above := by simp
    have gone : ∀ handle ∈ before ++ [head], handle ∈ before ++ head :: above := fun handle within =>
      part ▸ List.mem_append_left above within
    have left : (before ++ head :: above).filter (· ∉ before ++ [head]) = above := by
      rw [← part]
      exact filter_front (part ▸ valid.chain_distinct member)
    refine ⟨_, .deleteChain (Roster.cuts_without valid.distinct valid.inhabited member gone left), valid',
      fun chain inside elsewhere => detachAll_unaltered valid inside (fun handle within also => ?_) ran⟩
    exact elsewhere (by rw [eq_of_shared valid.distinct inside member also (gone handle within)]; simp)
  | resume handle value landing memory =>
    obtain ⟨removed, ran⟩ := ran
    have thawed := prepare_spec valid ran
    obtain ⟨before, above, _, _, member, _⟩ := thawed.moved
    exact ⟨_, .resume (cuts_of_gone valid member), thawed.valid, fun chain inside elsewhere =>
      thawed.unaltered valid inside elsewhere⟩
  | collect visit condemned state =>
    obtain ⟨_, ran⟩ := ran
    exact ⟨_, .collect visit condemned state, valid.repainted (Visitor.chains_spec valid ran).kept,
      fun _ _ elsewhere => elsewhere.elim⟩
  | age condemned oldest =>
    refine ⟨_, .age condemned oldest, ?_, fun _ _ elsewhere => elsewhere.elim⟩
    rcases ran with ⟨_, _, ran⟩ | ⟨_, same⟩
    · exact Store.age_valid valid ran
    · exact same ▸ valid
  | rejuvenate heap condemned oldest =>
    refine ⟨_, .rejuvenate heap condemned oldest, ?_, fun _ _ elsewhere => elsewhere.elim⟩
    rcases ran with ⟨_, _, ran⟩ | ⟨_, same⟩
    · exact Rejuvenation.rejuvenate_valid valid ran
    · exact same ▸ valid
  | enterQuietScope => exact ⟨_, .enterQuietScope, ran ▸ valid, fun _ _ _ => kept ran⟩
  | leaveQuietScope => exact ⟨_, .leaveQuietScope, ran ▸ valid, fun _ _ _ => kept ran⟩

private theorem capture_none {memory : Memory} {place : Nat → Word} {frames : List LiveFrame} {limit : Word}
    (none : suspended frames = []) (done : freezer.perform (.capture memory place frames limit) = .ok after) :
    after = freezer := by
  obtain ⟨⟨⟨visited, chain⟩, _⟩, ran, rfl⟩ := CallStacks.Failure.map_eq_ok.mp done
  unfold Freezer.capture at ran
  obtain ⟨⟨count, capture⟩, walked, ran⟩ := CallStacks.Failure.bind_eq_ok.mp ran
  have empty : capture.frames = [] := by
    have added := (Capture.walk_spec (CallStacks.Failure.ofStop_eq_ok.mp walked)).1
    rw [none] at added
    cases added
    rfl
  obtain ⟨⟨answer, middle⟩, installed, ran⟩ := CallStacks.Failure.bind_eq_ok.mp ran
  obtain ⟨store, stored, rfl⟩ := run_eq_ok.mp installed
  rw [empty] at stored
  cases stored
  cases ran
  rfl

/-- The store refines the plain machine of chains. Its chains are those of a roster, which the answers of the
freezer show. The moves that concern chains can be made, every operation that succeeds is a move of the machine,
and a chain that the operation does not concern stays where it is, with its frames as they are. -/
theorem Reachable.refines (reachable : Reachable freezer) :
    (∃ roster, Valid freezer.store roster) ∧ ∀ roster, Valid freezer.store roster →
      freezer.Shows roster ∧ freezer.Offers roster ∧
      ∀ operation after, freezer.perform operation = .ok after →
        (∃ next, roster.Moves operation next ∧ Valid after.store next ∧
          ∀ chain ∈ roster.chains, operation.Elsewhere chain →
            (chain ∈ roster.registered → chain ∈ next.registered) ∧
            (chain ∈ roster.hidden → chain ∈ next.hidden) ∧ Unaltered chain freezer.store after.store) ∧
        ∀ memory place frames limit, operation = .capture memory place frames limit → suspended frames = [] →
          after = freezer := by
  obtain ⟨roster, _, valid⟩ := reachable.history
  refine ⟨⟨roster, valid⟩, fun roster valid => ⟨shows_of_valid valid, offers_of_reachable reachable valid, ?_⟩⟩
  intro operation after done
  obtain ⟨next, moves, valid', unaltered⟩ := perform_moves valid done
  refine ⟨⟨next, moves, valid', fun chain member elsewhere => ?_⟩, fun memory place frames limit same none => ?_⟩
  · obtain ⟨registered, hidden⟩ := moves.other elsewhere
    exact ⟨registered, hidden, unaltered chain member elsewhere⟩
  · exact capture_none none (same ▸ done)

theorem Reachable.refines_sample : ∃ roster after next, Valid sample.store roster ∧
    roster.heads = [⟨1, 0⟩] ∧ sample.deleteChain ⟨1, 0⟩ = .ok (2, after) ∧
      roster.Moves (.deleteChain ⟨1, 0⟩) next ∧ next.heads = [] := by
  obtain ⟨⟨roster, valid⟩, refines⟩ := reachable_sample.refines
  obtain ⟨shows, offers, moves⟩ := refines roster valid
  have heads : roster.heads = [⟨1, 0⟩] :=
    Except.ok.inj (shows.heads.symm.trans (show sample.store.heads = .ok [⟨1, 0⟩] by decide +kernel))
  obtain ⟨before, registered⟩ := Represents.mem_heads_iff.mp (show (⟨1, 0⟩ : Handle) ∈ roster.heads by simp [heads])
  have member := List.mem_append_left roster.hidden registered
  have listed := shows.members before ⟨1, 0⟩ member
  rw [show sample.chainMembers ⟨1, 0⟩ = .ok [⟨1, 0⟩, ⟨0, 0⟩] by decide +kernel] at listed
  obtain ⟨after, done⟩ := offers.deleteChain before ⟨1, 0⟩ member
  have two : (before ++ [(⟨1, 0⟩ : Handle)]).length = 2 := by
    simpa using (congrArg List.length (Except.ok.inj listed)).symm
  rw [two] at done
  have performed : sample.perform (.deleteChain ⟨1, 0⟩) = .ok after :=
    CallStacks.Failure.map_eq_ok.mpr ⟨(2, after), done, rfl⟩
  obtain ⟨⟨next, move, valid', _⟩, _⟩ := moves (.deleteChain ⟨1, 0⟩) after performed
  refine ⟨roster, after, next, valid, heads, done, move, ?_⟩
  have emptied : (sample.deleteChain ⟨1, 0⟩).map (·.2.store.heads) = .ok (.ok []) := by decide +kernel
  rw [done] at emptied
  exact Except.ok.inj (valid'.heads_eq.symm.trans (Except.ok.inj emptied))

end CallStacks.Frozen.Freezer
