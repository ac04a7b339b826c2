import CallStacks.Proofs.Thawing

/-! Chains do not touch each other. A frame that leaves its chain, to be dropped or to run again, leaves the
frames of every other chain as they are, but for their places on the ring. -/

namespace CallStacks.Frozen

namespace Store

variable {store middle final : Store} {roster : Roster} {chain before after : List Handle} {handle : Handle}

/-- These frames are as they were, apart from their places on the ring. -/
def Unaltered (chain : List Handle) (store final : Store) : Prop :=
  ∀ member ∈ chain, (final.arena.find? member).map FrozenFrame.offRing =
    (store.arena.find? member).map FrozenFrame.offRing

theorem Unaltered.refl (store : Store) : Unaltered chain store store := fun _ _ => rfl

theorem Unaltered.trans (first : Unaltered chain store middle) (second : Unaltered chain middle final) :
    Unaltered chain store final :=
  fun member within => (second member within).trans (first member within)

private theorem offRing_congr (content : (final.arena.find? handle).map FrozenFrame.content =
      (store.arena.find? handle).map FrozenFrame.content)
    (floor : final.floor? handle = store.floor? handle) (ends : final.chainEnds handle = store.chainEnds handle) :
    (final.arena.find? handle).map FrozenFrame.offRing = (store.arena.find? handle).map FrozenFrame.offRing := by
  unfold floor? at floor
  unfold chainEnds at ends
  cases now : final.arena.find? handle with
  | none =>
    cases was : store.arena.find? handle with
    | none => rfl
    | some frame =>
      rw [now, was] at floor
      cases floor
  | some frame =>
    cases was : store.arena.find? handle with
    | none =>
      rw [now, was] at floor
      cases floor
    | some old =>
      rw [now, was] at content floor ends
      obtain ⟨buffer, layout, resumeAt, delivery, floor', caller, callee, ring⟩ := frame
      obtain ⟨buffer', layout', resumeAt', delivery', floor'', caller', callee', ring'⟩ := old
      simp only [Option.map_some, Option.some.injEq, FrozenFrame.content, Prod.mk.injEq, Ends.mk.injEq]
        at content floor ends
      obtain ⟨rfl, rfl, rfl, rfl⟩ := content
      obtain ⟨rfl, rfl⟩ := ends
      subst floor
      rfl

private theorem chainEnds_of_member (valid : Represents store roster) {next : Roster} (valid' : Represents final next)
    (member : chain ∈ roster.chains) (member' : chain ∈ next.chains) (within : handle ∈ chain) :
    final.chainEnds handle = store.chainEnds handle := by
  obtain ⟨first, last, rfl⟩ := List.append_of_mem within
  exact (valid'.linked _ member' first handle last rfl).trans (valid.linked _ member first handle last rfl).symm

private theorem mem_chains_without (valid : Represents store roster) (member : chain ∈ roster.chains)
    (outside : handle ∉ chain) : chain ∈ (roster.without [handle]).chains := by
  rw [Roster.chains_without, mem_thinned]
  exact ⟨valid.inhabited chain member, chain, member, filter_apart outside⟩

/-- A frame that leaves its chain alters no other chain. -/
theorem Detached.unaltered (detached : Detached store before handle after final)
    (inside : before ++ handle :: after ∈ roster.chains) (distinct : roster.members.Nodup)
    (member : chain ∈ roster.chains) (outside : handle ∉ chain) :
    ∀ other ∈ chain, (final.arena.find? other).map FrozenFrame.content =
      (store.arena.find? other).map FrozenFrame.content ∧ final.floor? other = store.floor? other := by
  intro other within
  have different : other ≠ handle := fun same => outside (same ▸ within)
  refine ⟨detached.content other different, ?_⟩
  rw [detached.floor other different, if_neg]
  rintro ⟨_, last⟩
  have shared := eq_of_shared distinct member inside within (List.mem_append_left _ (List.mem_of_getLast? last))
  exact outside (by rw [shared]; simp)

theorem detach_unaltered {removed : FrozenFrame} (valid : Valid store roster) (member : chain ∈ roster.chains)
    (outside : handle ∉ chain) (done : StoreM.detach handle store = .ok removed final) :
    Valid final (roster.without [handle]) ∧ chain ∈ (roster.without [handle]).chains ∧ Unaltered chain store final := by
  obtain ⟨before, after, inside, valid', detached⟩ := detached_of_detach valid done
  have still := mem_chains_without valid.toRepresents member outside
  refine ⟨valid', still, fun other within => ?_⟩
  obtain ⟨content, floor⟩ := detached.unaltered inside valid.distinct member outside other within
  exact offRing_congr content floor
    (chainEnds_of_member valid.toRepresents valid'.toRepresents member still within)

theorem detachAll_unaltered {gone : List Handle} (valid : Valid store roster) (member : chain ∈ roster.chains)
    (outside : ∀ handle ∈ gone, handle ∉ chain)
    (done : (gone.forM fun member => discard (StoreM.detach member)) store = .ok () final) :
    Unaltered chain store final := by
  induction gone generalizing store roster with
  | nil =>
    obtain ⟨_, rfl⟩ := EStateM.pure_eq_ok.mp done
    exact .refl store
  | cons first rest ih =>
    obtain ⟨middle, ran, done⟩ := EStateM.forM_cons_eq_ok.mp done
    obtain ⟨removed, detached⟩ := EStateM.discard_eq_ok.mp ran
    obtain ⟨valid', member', one⟩ := detach_unaltered valid member (outside first List.mem_cons_self) detached
    exact one.trans (ih valid' member' (fun handle within => outside handle (List.mem_cons_of_mem _ within)) done)

theorem Thawed.unaltered {removed : FrozenFrame} {sp : Word} (thawed : Thawed store roster handle sp removed final)
    (valid : Valid store roster) (member : chain ∈ roster.chains) (outside : handle ∉ chain) :
    Unaltered chain store final := by
  obtain ⟨before, after, frame, middle, inside, _, swept, _, _, rest⟩ := thawed.moved
  obtain ⟨woken, wakes, detached⟩ := thawed.left before after inside
  have still := mem_chains_without valid.toRepresents member outside
  have apart : ∀ other ∈ chain, other ∉ before ++ handle :: after := fun other within also =>
    outside (by rw [eq_of_shared valid.distinct member inside within also]; simp)
  intro other within
  have behind : other ∉ handle :: after := fun also => apart other within (List.mem_append_right _ also)
  apply offRing_congr
  · rw [rest other fun same => behind (by simp [same]), swept.others other behind]
  · rw [(detached.unaltered inside valid.distinct member outside other within).2,
      wakes.others other (apart other within)]
  · exact chainEnds_of_member valid.toRepresents thawed.valid.toRepresents member still within

end Store
end CallStacks.Frozen
