import CallStacks.Proofs.ChainInstall
import CallStacks.Proofs.ChainSteps

/-! Operations on the store as changes of its roster. Besides its links, a store keeps one promise to
the collector: the head of a chain carries the lowest floor of the chain, so that the collector may
pass over a whole chain by its head. -/

namespace CallStacks.Frozen

namespace Store

variable {store final : Store} {roster arranged : Roster} {chain before after : List Handle}
  {handle head : Handle} {frame : FrozenFrame}

def HeadLowest (store : Store) (chain : List Handle) : Prop :=
  ∀ head, chain.getLast? = some head → ∀ floor, store.floor? head = some floor →
    ∀ other ∈ store.floors chain, floor ≤ other

structure Valid (store : Store) (roster : Roster) : Prop extends Represents store roster where
  lowest : ∀ chain ∈ roster.chains, HeadLowest store chain

theorem HeadLowest.congr (lowest : HeadLowest store chain)
    (same : ∀ member ∈ chain, final.floor? member = store.floor? member) : HeadLowest final chain := by
  intro head last floor known other within
  have floors : final.floors chain = store.floors chain := List.filterMap_congr same
  rw [floors] at within
  exact lowest head last floor ((same head (List.mem_of_getLast? last)).symm.trans known) other within

theorem Valid.empty : Valid {} {} := by
  refine ⟨⟨Arena.sound_empty, ?_, ?_, fun handle => ?_, ?_, ?_⟩, ?_⟩
  · exact List.nodup_nil
  · simp [Roster.chains]
  · simp [Roster.members, Roster.chains, Arena.find?]
  · simp [Roster.chains]
  · exact ⟨.nil, rfl, rfl, by simp [ringAt, Arena.find?], rfl⟩
  · simp [Roster.chains]

theorem Valid.undisturbed (valid : Valid store roster)
    (kept : Undisturbed FrozenFrame.neighbours store final)
    (lowest : ∀ chain ∈ roster.chains, HeadLowest final chain) : Valid final roster :=
  ⟨valid.toRepresents.undisturbed kept, lowest⟩

theorem Valid.repainted (valid : Valid store roster)
    (kept : Undisturbed FrozenFrame.offBytes store final) : Valid final roster := by
  refine valid.undisturbed (kept.coarsen _ FrozenFrame.neighbours fun _ => rfl) fun chain member => ?_
  have floors : Undisturbed FrozenFrame.floor store final := kept.coarsen _ (·.floor) fun _ => rfl
  exact (valid.lowest chain member).congr fun handle _ => floors.frames handle

theorem Valid.refloored (valid : Valid store roster) (member : chain ∈ roster.chains)
    (kept : Undisturbed FrozenFrame.offFloor store final) (lowest : HeadLowest final chain)
    (others : ∀ other, other ∉ chain → final.floor? other = store.floor? other) :
    Valid final roster := by
  refine valid.undisturbed (kept.coarsen _ FrozenFrame.neighbours fun _ => rfl) fun other inside => ?_
  by_cases same : other = chain
  · exact same ▸ lowest
  · apply (valid.lowest other inside).congr
    intro handle within
    apply others
    intro shared
    exact same (eq_of_shared valid.distinct inside member within shared)

theorem Valid.rearranged (valid : Valid store roster) (agrees : Agrees FrozenFrame.offRing store final)
    (same : arranged.chains.Perm roster.chains) (ring : OnRing final arranged.heads) :
    Valid final arranged := by
  refine ⟨valid.toRepresents.rearranged agrees same ring, fun chain member => ?_⟩
  have floors : Agrees FrozenFrame.floor store final := agrees.coarsen _ (·.floor) fun _ => rfl
  exact (valid.lowest chain (same.mem_iff.mp member)).congr fun handle _ => floors.frames handle

theorem register_spec (valid : Valid store roster) (done : StoreM.register head store = .ok () final) :
    (∃ before, before ++ [head] ∈ roster.hidden) ∧ Valid final (roster.reveal head) := by
  have agrees := StoreM.register_agrees head _ _ _ done
  unfold StoreM.register at done
  obtain ⟨frame, _, asked, done⟩ := EStateM.bind_eq_ok.mp done
  obtain ⟨known, rfl⟩ := StoreM.ask_eq_ok.mp asked
  have live := StoreM.frame_eq_ok.mp known
  dsimp only at done
  split at done
  · obtain ⟨_, _, thrown, _⟩ := EStateM.bind_eq_ok.mp done
    exact (EStateM.throw_eq_ok.mp thrown).elim
  next isHead =>
  split at done
  · obtain ⟨_, _, thrown, _⟩ := EStateM.bind_eq_ok.mp done
    exact (EStateM.throw_eq_ok.mp thrown).elim
  next unlinked =>
  obtain ⟨before, after, member, _, caller⟩ := valid.place live
  obtain rfl : after = [] := by
    cases after with
    | nil => rfl
    | cons next rest => simp [FrozenFrame.isHead, caller] at isHead
  have fresh : head ∉ roster.heads := fun within => unlinked ((valid.registered_iff live).mpr within)
  have hidden : before ++ [head] ∈ roster.hidden := by
    rcases List.mem_append.mp member with registered | hidden
    · exact absurd (Represents.mem_heads_iff.mpr ⟨before, registered⟩) fresh
    · exact hidden
  obtain ⟨reached, ran, ring⟩ := hang_run valid.ring (List.nodup_cons.mpr ⟨fresh, valid.nodup_heads⟩) live
  obtain ⟨_, rfl⟩ := EStateM.outcome_unique done ran
  refine ⟨⟨before, hidden⟩, valid.rearranged agrees (roster.chains_reveal head) ?_⟩
  rw [Roster.heads_reveal valid.distinct hidden]
  exact ring

theorem unregister_spec (valid : Valid store roster)
    (done : StoreM.unregister head store = .ok () final) :
    (∃ before, before ++ [head] ∈ roster.registered) ∧ Valid final (roster.conceal head) := by
  have agrees := StoreM.unregister_agrees head _ _ _ done
  have within : head ∈ roster.heads := by
    unfold StoreM.unregister at done
    obtain ⟨frame, _, asked, done⟩ := EStateM.bind_eq_ok.mp done
    obtain ⟨known, rfl⟩ := StoreM.ask_eq_ok.mp asked
    apply (valid.registered_iff (StoreM.frame_eq_ok.mp known)).mp
    cases linked : frame.ring with
    | none =>
      rw [linked] at done
      exact (EStateM.throw_eq_ok.mp done).elim
    | some links => simp [FrozenFrame.isRegistered, linked]
  obtain ⟨before, registered⟩ := Represents.mem_heads_iff.mp within
  obtain ⟨first, last, split⟩ := List.append_of_mem registered
  have ring := valid.ring
  have distinct := valid.nodup_heads
  rw [Roster.heads_eq_of_split split] at ring distinct
  simp only [List.getLast?_append, List.getLast?_singleton, Option.some_or, Option.toList_some,
    List.append_assoc, List.singleton_append] at ring distinct
  obtain ⟨reached, ran, ring⟩ := unregister_run ring distinct
  obtain ⟨_, rfl⟩ := EStateM.outcome_unique done ran
  refine ⟨⟨before, registered⟩, valid.rearranged agrees (roster.chains_conceal head) ?_⟩
  rw [Roster.heads_conceal valid.distinct split]
  exact ring

private theorem headLowest_gap (lowest : HeadLowest store (before ++ handle :: after))
    (fresh : handle ∉ before ++ after) (detached : Detached store before handle after final) :
    HeadLowest final (before ++ after) := by
  have different : ∀ other ∈ before ++ after, other ≠ handle := fun other within same =>
    fresh (same ▸ within)
  intro head last floor known other within
  obtain ⟨member, inside, frame, live, rfl⟩ := mem_floors.mp within
  have now := detached.floor member (different member inside)
  have atHead := detached.floor head (different head (List.mem_of_getLast? last))
  cases after with
  | nil =>
    rw [List.append_nil] at last inside
    rw [if_pos ⟨rfl, last⟩, known, eq_comm] at atHead
    obtain ⟨_, least⟩ := List.min?_eq_some_iff.mp atHead
    simp only [floor?, live, Option.map_some, true_and] at now
    split at now
    · rw [atHead, Option.some.injEq] at now
      exact Int.le_of_eq now.symm
    · exact least _ (List.mem_filterMap.mpr ⟨member, inside, now.symm⟩)
  | cons next rest =>
    have whole : (before ++ handle :: next :: rest).getLast? = some head := by
      simpa [List.getLast?_append, List.getLast?_cons] using last
    rw [known] at atHead
    simp only [reduceCtorEq, false_and, if_false] at now atHead
    rw [floor?, live, Option.map_some] at now
    refine lowest head whole floor atHead.symm _ (List.mem_filterMap.mpr ⟨member, ?_, now.symm⟩)
    simp only [List.mem_append, List.mem_cons] at inside ⊢
    exact inside.imp id .inr

theorem detach_spec (valid : Valid store roster)
    (member : before ++ handle :: after ∈ roster.chains)
    (live : store.arena.find? handle = some frame) :
    ∃ removed final, StoreM.detach handle store = .ok removed final ∧
      removed.content = frame.content ∧ Valid final (roster.without [handle]) ∧
      Detached store before handle after final := by
  obtain ⟨removed, final, ran, content, represents, detached⟩ := detach_run valid.toRepresents member live
  refine ⟨removed, final, ran, content, ⟨represents, fun chain inside => ?_⟩, detached⟩
  rw [Roster.chains_without, mem_thinned] at inside
  obtain ⟨_, whole, inside, rfl⟩ := inside
  by_cases within : handle ∈ whole
  · obtain rfl := eq_of_shared valid.distinct member inside (by simp) within
    obtain ⟨fresh, _⟩ := List.nodup_cons.mp (List.nodup_middle.mp (valid.chain_distinct member))
    rw [filter_gap fresh]
    exact headLowest_gap (valid.lowest _ member) fresh detached
  · rw [filter_apart within]
    refine (valid.lowest whole inside).congr fun other inner => ?_
    have different : other ≠ handle := fun same => within (same ▸ inner)
    rw [detached.floor other different, if_neg]
    rintro ⟨_, last⟩
    apply within
    rw [← eq_of_shared valid.distinct member inside
      (List.mem_append_left _ (List.mem_of_getLast? last)) inner]
    simp

theorem detached_of_detach {removed : FrozenFrame} (valid : Valid store roster)
    (done : StoreM.detach handle store = .ok removed final) :
    ∃ before after, before ++ handle :: after ∈ roster.chains ∧ Valid final (roster.without [handle]) ∧
      Detached store before handle after final := by
  obtain ⟨frame, live⟩ := live_of_detach done
  obtain ⟨before, after, member, _⟩ := valid.place live
  obtain ⟨_, _, ran, _, valid', detached⟩ := detach_spec valid member live
  obtain ⟨_, rfl⟩ := EStateM.outcome_unique done ran
  exact ⟨before, after, member, valid', detached⟩

theorem detachAll_spec {gone : List Handle} (valid : Valid store roster) (distinct : gone.Nodup)
    (members : gone ⊆ roster.members) :
    ∃ final, (gone.forM fun member => discard (StoreM.detach member)) store = .ok () final ∧
      Valid final (roster.without gone) := by
  induction gone generalizing store roster with
  | nil =>
    refine ⟨store, rfl, ?_⟩
    have same : ∀ chains : List (List Handle), (∀ chain ∈ chains, chain ≠ []) → thinned [] chains = chains :=
      fun chains inhabited => thinned_of_apart inhabited (by simp)
    rw [Roster.without, same _ fun chain inside => valid.inhabited chain (List.mem_append_left _ inside),
      same _ fun chain inside => valid.inhabited chain (List.mem_append_right _ inside)]
    exact valid
  | cons first rest ih =>
    obtain ⟨fresh, distinct⟩ := List.nodup_cons.mp distinct
    obtain ⟨frame, live⟩ := Option.isSome_iff_exists.mp ((valid.live first).mp (members List.mem_cons_self))
    obtain ⟨before, after, member, _⟩ := valid.place live
    obtain ⟨removed, middle, ran, _, valid', _⟩ := detach_spec valid member live
    obtain ⟨final, ranRest, valid''⟩ := ih valid' distinct (by
      intro other within
      rw [Roster.members_without, List.mem_filter]
      refine ⟨members (List.mem_cons_of_mem _ within), ?_⟩
      simpa using fun same : other = first => fresh (same ▸ within))
    rw [Roster.without_without] at valid''
    exact ⟨final, EStateM.forM_cons_eq_ok.mpr ⟨middle, EStateM.discard_eq_ok.mpr ⟨removed, ran⟩, ranRest⟩,
      valid''⟩

/-- A frame and all its callees are taken out, innermost first. -/
theorem detachAll_of_chainMembers {members : List Handle} (valid : Valid store roster)
    (listed : store.chainMembers head = .ok members)
    (done : (members.reverse.forM fun member => discard (StoreM.detach member)) store = .ok () final) :
    ∃ before above, before ++ head :: above ∈ roster.chains ∧ members.reverse = before ++ [head] ∧
      Valid final (roster.without (before ++ [head])) := by
  obtain ⟨before, above, member, turned⟩ := valid.chain_of_chainMembers listed
  have part : (before ++ [head]) ++ above = before ++ head :: above := by simp
  obtain ⟨_, ran, valid'⟩ := detachAll_spec valid
    (List.nodup_append.mp (part ▸ valid.chain_distinct member)).1 fun other within =>
      List.mem_flatten.mpr ⟨_, member, part ▸ List.mem_append_left _ within⟩
  rw [← turned] at ran
  obtain ⟨_, rfl⟩ := EStateM.outcome_unique done ran
  exact ⟨before, above, member, turned, valid'⟩

theorem forM_tryFrame_spec {handles : List Handle} {change : FrozenFrame → Except Failure FrozenFrame}
    (distinct : handles.Nodup)
    (done : handles.forM (StoreM.tryFrame · change) store = .ok () final) :
    (∀ handle ∈ handles, ∃ frame changed, store.arena.find? handle = some frame ∧
      change frame = .ok changed ∧ final.arena.find? handle = some changed) ∧
    ∀ other, other ∉ handles → final.arena.find? other = store.arena.find? other := by
  induction handles generalizing store with
  | nil =>
    obtain ⟨_, rfl⟩ := EStateM.pure_eq_ok.mp done
    exact ⟨by simp, fun _ _ => rfl⟩
  | cons first rest ih =>
    obtain ⟨fresh, distinct⟩ := List.nodup_cons.mp distinct
    obtain ⟨middle, ran, done⟩ := EStateM.forM_cons_eq_ok.mp done
    obtain ⟨frame, changed, live, ok, rfl⟩ := StoreM.tryFrame_eq_ok.mp ran
    obtain ⟨each, others⟩ := ih distinct done
    refine ⟨fun handle within => ?_, fun other outside => ?_⟩
    · rcases List.mem_cons.mp within with rfl | within
      · exact ⟨frame, changed, live, ok, by rw [others handle fresh, find?_setFrame live, if_pos rfl]⟩
      · obtain ⟨old, new, known, facts⟩ := each handle within
        rw [find?_setFrame live, if_neg fun same : handle = first => fresh (same ▸ within)] at known
        exact ⟨old, new, known, facts⟩
    · simp only [List.mem_cons, not_or] at outside
      rw [others other outside.2, find?_setFrame live, if_neg outside.1]

theorem Installed.floor? {frames : List FrozenFrame} {handles : List Handle}
    (installed : Installed frames handles store final) (fresh : ∀ frame ∈ frames, frame.Fresh)
    (within : handle ∈ handles) : final.floor? handle = some Generation.youngest := by
  obtain ⟨frame, member, held⟩ := held_of_mem installed.held within
  have floors := congrArg (Option.map FrozenFrame.floor) held
  rw [Option.map_map, Option.map_some] at floors
  exact floors.trans (congrArg some (fresh frame member).floor)

theorem Installed.floor?_of_live {frames : List FrozenFrame} {handles : List Handle}
    (installed : Installed frames handles store final) (live : (store.arena.find? handle).isSome) :
    final.floor? handle = store.floor? handle := by
  have outside : handle ∉ handles := by
    intro both
    rw [installed.fresh handle both] at live
    cases live
  rw [Store.floor?, installed.others handle outside, Store.floor?]

theorem install_valid {frames : List FrozenFrame} {answer : Option Chain} (valid : Valid store roster)
    (fresh : ∀ frame ∈ frames, frame.Fresh) (done : StoreM.install frames store = .ok answer final) :
    ∃ handles, answer = Chain.of? handles ∧ Installed frames handles store final ∧
      Valid final (roster.add handles) := by
  obtain ⟨handles, named, installed, represents⟩ := install_spec valid.toRepresents fresh done
  refine ⟨handles, named, installed, represents, fun chain inside => ?_⟩
  rcases Roster.mem_chains_add.mp inside with ⟨rfl, _⟩ | inside
  · intro head last floor known other within
    obtain ⟨handle, inner, now⟩ := List.mem_filterMap.mp within
    rw [installed.floor? fresh (List.mem_of_getLast? last)] at known
    rw [installed.floor? fresh inner] at now
    exact Int.le_of_eq ((Option.some.inj known).symm.trans (Option.some.inj now))
  · exact (valid.lowest chain inside).congr fun member within =>
      installed.floor?_of_live (valid.live_of_mem inside within)

end Store
end CallStacks.Frozen
