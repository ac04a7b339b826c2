import CallStacks.Proofs.Reachability

/-! Operations and the chains that they are not about. A chain whose frames are not resumed, not dropped
and not written to keeps its place among the chains, and its frames keep what they need to run again. -/

namespace CallStacks.Frozen

/-- The operation resumes and drops none of these frames, and writes to none of their slots. -/
def Operation.Spares (operation : Operation) (handles : List Handle) : Prop :=
  match operation with
  | .delete handle => handle ∉ handles
  | .deleteChain head => head ∉ handles
  | .resume handle _ _ _ => handle ∉ handles
  | .collect visit _ _ => ∀ owner ∈ handles, visit.SilentFor owner
  | _ => True

namespace Store

variable {store middle final : Store} {handles : List Handle} {handle : Handle}

/-- These frames are as they were, apart from their neighbours and floors. -/
def Spared (handles : List Handle) (store final : Store) : Prop :=
  ∀ handle ∈ handles, (final.arena.find? handle).map FrozenFrame.content =
    (store.arena.find? handle).map FrozenFrame.content

theorem Spared.refl (store : Store) : Spared handles store store := fun _ _ => rfl

theorem Spared.trans (first : Spared handles store middle) (second : Spared handles middle final) :
    Spared handles store final :=
  fun handle within => (second handle within).trans (first handle within)

theorem Agrees.spared (agrees : Agrees FrozenFrame.content store final) : Spared handles store final :=
  fun handle _ => agrees.frames handle

theorem Spared.setFrame {frame changed : FrozenFrame} (live : store.arena.find? handle = some frame)
    (same : handle ∈ handles → changed.content = frame.content) :
    Spared handles store (store.setFrame handle changed) := by
  intro other within
  rw [find?_setFrame live]
  split
  next here =>
    subst here
    rw [live, Option.map_some, Option.map_some, same within]
  next => rfl

end Store

namespace StoreM
open Store

variable {handles : List Handle} {handle : Handle}

private theorem takeOut_spared (outside : handle ∉ handles) : Respects (Spared handles) (takeOut handle) := by
  intro store answer final done
  obtain ⟨arena, gone, rfl⟩ := takeOut_eq_ok.mp done
  intro other within
  have different : other ≠ handle := fun same => outside (same ▸ within)
  rw [Arena.find?_remove gone, if_neg different]

theorem detach_spared (outside : handle ∉ handles) : Respects (Spared handles) (detach handle) := by
  unfold detach
  refine .bind Spared.trans (.ask Spared.refl _) fun frame => ?_
  refine .bind Spared.trans (fun store answer final done => ?_) fun _ => ?_
  · exact ((bypass_undisturbed frame store answer final done).toAgrees.coarsen FrozenFrame.content
      FrozenFrame.content fun _ => rfl).spared
  refine .bind Spared.trans ?_ fun _ => ?_
  · unfold passFloor
    split
    · intro store answer final done
      exact ((takeOver_undisturbed _ store answer final done).toAgrees.coarsen FrozenFrame.content
        FrozenFrame.content fun _ => rfl).spared
    · exact .pure Spared.refl _
  refine .bind Spared.trans (fun store answer final done => ?_) fun _ => takeOut_spared outside
  exact ((leaveRing_agrees handle frame store answer final done).coarsen FrozenFrame.content
    FrozenFrame.content fun _ => rfl).spared

end StoreM

namespace Visitor
open Store

variable {σ : Type} {visit : Visitor σ} {handles : List Handle}

private theorem frame_spared (silent : ∀ owner ∈ handles, visit.SilentFor owner) (condemned : Generation)
    (seen : Nat × σ) (handle : Handle) :
    StoreM.Respects (Spared handles) (visit.frame condemned seen handle) := by
  intro store answer final done
  unfold frame at done
  obtain ⟨frame, _, asked, done⟩ := EStateM.bind_eq_ok.mp done
  obtain ⟨known, rfl⟩ := StoreM.ask_eq_ok.mp asked
  split at done
  · obtain ⟨_, rfl⟩ := EStateM.pure_eq_ok.mp done
    exact .refl store
  obtain ⟨⟨buffer, count, last⟩, _, asked, done⟩ := EStateM.bind_eq_ok.mp done
  obtain ⟨ran, rfl⟩ := StoreM.ask_eq_ok.mp asked
  obtain ⟨_, middle, changed, done⟩ := EStateM.bind_eq_ok.mp done
  obtain rfl := EStateM.modify_eq_ok.mp changed
  obtain ⟨_, rfl⟩ := EStateM.pure_eq_ok.mp done
  refine .setFrame (StoreM.frame_eq_ok.mp known) fun within => ?_
  obtain ⟨_, _, quiet⟩ := run_spec (CallStacks.Failure.ofRefusal_eq_ok.mp ran)
  simp only [FrozenFrame.content, quiet (silent handle within)]

private theorem chains_spared (silent : ∀ owner ∈ handles, visit.SilentFor owner) (condemned : Generation)
    (state : σ) : StoreM.Respects (Spared handles) (visit.chains condemned state) := by
  apply StoreM.Respects.insisting
  refine .bind Spared.trans (.ask Spared.refl _) fun heads => ?_
  refine .foldlM Spared.refl Spared.trans heads _ fun head _ seen => ?_
  unfold chain
  refine .bind Spared.trans (.ask Spared.refl _) fun frame => ?_
  split
  · exact .pure Spared.refl _
  refine .bind Spared.trans (.ask Spared.refl _) fun members => ?_
  exact .foldlM Spared.refl Spared.trans members _ fun member _ seen => frame_spared silent condemned seen member

end Visitor

namespace Freezer
open Store

variable {freezer after : Freezer} {roster next : Roster} {chain : List Handle} {operation : Operation}

theorem chain_of_follows (valid : Valid freezer.store roster) (member : chain ∈ roster.chains)
    (spares : operation.Spares chain) (follows : roster.Follows operation next) : chain ∈ next.chains := by
  have stays : ∀ gone : List Handle, (∀ handle ∈ chain, handle ∉ gone) → chain ∈ (roster.without gone).chains := by
    intro gone apart
    rw [Roster.chains_without, mem_thinned]
    exact ⟨valid.inhabited chain member, chain, member, filter_apart_all apart⟩
  cases follows with
  | capture => exact Roster.mem_chains_add.mpr (.inr member)
  | register head => exact (roster.chains_reveal head).mem_iff.mpr member
  | unregister head => exact (roster.chains_conceal head).mem_iff.mpr member
  | delete handle =>
    apply stays
    rintro other within inside
    exact spares (List.mem_singleton.mp inside ▸ within)
  | deleteChain head inside =>
    apply stays
    intro other within gone
    have shared := eq_of_shared valid.distinct member inside within
      (by rw [← List.singleton_append, ← List.append_assoc]; exact List.mem_append_left _ gone)
    exact spares (by rw [shared]; simp)
  | resume handle =>
    apply stays
    rintro other within inside
    exact spares (List.mem_singleton.mp inside ▸ within)
  | collect => exact member
  | age => exact member
  | rejuvenate => exact member
  | enterQuietScope => exact member
  | leaveQuietScope => exact member

private theorem thawed_spared {handle : Handle} {sp : Word} {removed : FrozenFrame}
    (valid : Valid freezer.store roster) (member : chain ∈ roster.chains) (outside : handle ∉ chain)
    (thawed : Thawed freezer.store roster handle sp removed after.store) :
    Spared chain freezer.store after.store := by
  obtain ⟨before, behind, frame, middle, inside, _, swept, _, _, rest⟩ := thawed.moved
  intro other within
  have apart : other ∉ handle :: behind := by
    intro also
    have shared := eq_of_shared valid.distinct member inside within (List.mem_append_right _ also)
    exact outside (by rw [shared]; simp)
  rw [rest other fun same => apart (by simp [same]), swept.others other apart]

/-- An operation leaves the frames of a chain that it spares what they need to run again. -/
theorem perform_spared (valid : Valid freezer.store roster) (member : chain ∈ roster.chains)
    (spares : operation.Spares chain) (done : freezer.perform operation = .ok after) :
    Spared chain freezer.store after.store := by
  have offRing : ∀ {store final}, Agrees FrozenFrame.offRing store final → Spared chain store final :=
    fun agrees => (agrees.coarsen FrozenFrame.content FrozenFrame.content fun _ => rfl).spared
  have offFloor : ∀ {store final}, Undisturbed FrozenFrame.offFloor store final → Spared chain store final :=
    fun kept => (kept.toAgrees.coarsen FrozenFrame.content FrozenFrame.content fun _ => rfl).spared
  have kept (same : after.store = freezer.store) : Spared chain freezer.store after.store := by
    rw [same]
    exact .refl _
  obtain ⟨ran, _⟩ := perform_ran done
  cases operation with
  | capture memory place frames limit =>
    obtain ⟨_, capture, _, walked, stored⟩ := ran
    obtain ⟨handles, _, installed, _⟩ := install_valid valid (Capture.fresh_of_walk walked) stored
    intro other within
    have outside : other ∉ handles := by
      intro also
      have live := valid.live_of_mem member within
      rw [installed.fresh other also] at live
      cases live
    rw [installed.others other outside]
  | register head => exact offRing (StoreM.register_agrees head _ _ _ ran)
  | unregister head => exact offRing (StoreM.unregister_agrees head _ _ _ ran)
  | delete handle =>
    obtain ⟨_, ran⟩ := ran
    exact StoreM.detach_spared spares _ _ _ ran
  | deleteChain head =>
    obtain ⟨members, listed, ran⟩ := ran
    obtain ⟨before, above, inside, turned⟩ := valid.chain_of_chainMembers listed
    rw [turned] at ran
    refine StoreM.Respects.forM Spared.refl Spared.trans _ (fun gone leaves => ?_) _ _ _ ran
    intro store answer final discarded
    obtain ⟨frame, detached⟩ := EStateM.discard_eq_ok.mp discarded
    refine StoreM.detach_spared (fun within => ?_) _ _ _ detached
    have shared := eq_of_shared valid.distinct member inside within
      (by rw [← List.singleton_append, ← List.append_assoc]; exact List.mem_append_left _ leaves)
    exact spares (by rw [shared]; simp)
  | resume handle value landing memory =>
    obtain ⟨removed, ran⟩ := ran
    exact thawed_spared valid member spares (prepare_spec valid ran)
  | collect visit condemned state =>
    obtain ⟨_, ran⟩ := ran
    exact visit.chains_spared spares condemned state _ _ _ ran
  | age condemned oldest =>
    rcases ran with ⟨_, _, ran⟩ | ⟨_, same⟩
    · exact offFloor (age_undisturbed condemned oldest _ _ _ ran)
    · exact kept same
  | rejuvenate heap condemned oldest =>
    rcases ran with ⟨_, _, ran⟩ | ⟨_, same⟩
    · exact offFloor (Rejuvenation.rejuvenate_undisturbed heap condemned oldest _ _ _ ran)
    · exact kept same
  | enterQuietScope => exact kept ran
  | leaveQuietScope => exact kept ran

end Freezer
end CallStacks.Frozen
