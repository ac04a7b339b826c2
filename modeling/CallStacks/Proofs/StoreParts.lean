import CallStacks.Proofs.OperationRuns

/-! What operations on the store are made of. A capture puts frames in and a removal takes one out. All else only
changes frames that are there, or the ring, and is missed by a relation that looks at neither. -/

namespace CallStacks.Frozen

namespace Store

variable {relation : Store → Store → Prop}

/-- The relation looks neither at what frames hold nor at the ring. -/
structure Blind (relation : Store → Store → Prop) : Prop where
  trans : ∀ {store middle final}, relation store middle → relation middle final → relation store final
  setFrame : ∀ store handle frame, relation store (store.setFrame handle frame)
  ring : ∀ {store final : Store}, final.arena = store.arena → relation store final

namespace Blind
open StoreM

variable (blind : Blind relation)

include blind

theorem refl (store : Store) : relation store store := blind.ring rfl

theorem get : Respects relation (get : StoreM Store) := by
  intro store answer final done
  obtain ⟨_, rfl⟩ := EStateM.get_eq_ok.mp done
  exact blind.refl store

theorem modify {change : Store → Store} (same : ∀ store, (change store).arena = store.arena) :
    Respects relation (modify change : StoreM PUnit) :=
  .modify fun store => blind.ring (same store)

theorem tryFrame (handle : Handle) (change : FrozenFrame → Except Failure FrozenFrame) :
    Respects relation (tryFrame handle change) := by
  intro store answer final done
  obtain ⟨frame, changed, _, _, rfl⟩ := tryFrame_eq_ok.mp done
  exact blind.setFrame store handle changed

theorem changeFrame (handle : Handle) (change : FrozenFrame → FrozenFrame) :
    Respects relation (changeFrame handle change) := by
  rw [changeFrame_eq_tryFrame]
  exact blind.tryFrame handle _

theorem changeLinks (node : RingNode) (change : RingLinks → RingLinks) :
    Respects relation (changeLinks node change) := by
  unfold StoreM.changeLinks
  refine .bind blind.trans (.ask blind.refl _) fun links => ?_
  cases node with
  | anchor => exact blind.modify fun _ => rfl
  | head handle => exact blind.changeFrame handle _

theorem register (handle : Handle) : Respects relation (register handle) := by
  unfold StoreM.register
  refine .bind blind.trans (.ask blind.refl _) fun frame => ?_
  dsimp only
  split
  · exact .throw_bind _ _
  split
  · exact .throw_bind _ _
  unfold hang
  refine .bind blind.trans blind.get fun store => ?_
  refine .bind blind.trans (blind.changeFrame handle _) fun _ => ?_
  exact .bind blind.trans (blind.changeLinks _ _) fun _ => blind.modify fun _ => rfl

theorem unregister (handle : Handle) : Respects relation (unregister handle) := by
  unfold StoreM.unregister
  refine .bind blind.trans (.ask blind.refl _) fun frame => ?_
  cases frame.ring with
  | none => exact .throw _
  | some links =>
    refine .bind blind.trans (blind.changeLinks _ _) fun _ => ?_
    refine .bind blind.trans (blind.changeLinks _ _) fun _ => ?_
    refine .bind blind.trans (blind.changeFrame handle _) fun _ => ?_
    unfold countDown
    refine .bind blind.trans blind.get fun store => ?_
    cases store.registered with
    | zero => exact .throw _
    | succ count => exact blind.modify fun _ => rfl

theorem bypass (frame : FrozenFrame) : Respects relation (bypass frame) := by
  unfold StoreM.bypass
  exact .bind blind.trans (.optionForM blind.refl _ fun caller => blind.changeFrame caller _) fun _ =>
    .optionForM blind.refl _ fun callee => blind.changeFrame callee _

theorem passFloor (frame : FrozenFrame) : Respects relation (passFloor frame) := by
  unfold StoreM.passFloor
  split
  · exact .bind blind.trans (.ask blind.refl _) fun floor => blind.changeFrame _ _
  · exact .pure blind.refl _

theorem leaveRing (handle : Handle) (frame : FrozenFrame) : Respects relation (leaveRing handle frame) := by
  unfold StoreM.leaveRing
  split
  · split
    · unfold replaceHead
      refine .bind blind.trans (.ask blind.refl _) fun old => ?_
      cases old.ring with
      | none => exact .throw _
      | some links =>
        refine .bind blind.trans (blind.changeFrame _ _) fun _ => ?_
        refine .bind blind.trans (blind.changeFrame _ _) fun _ => ?_
        exact .bind blind.trans (blind.changeLinks _ _) fun _ => blind.changeLinks _ _
    · exact blind.unregister handle
  · exact .pure blind.refl _

theorem detach (removes : ∀ handle, Respects relation (takeOut handle)) (handle : Handle) :
    Respects relation (detach handle) := by
  unfold StoreM.detach
  refine .bind blind.trans (.ask blind.refl _) fun frame => ?_
  refine .bind blind.trans (blind.bypass frame) fun _ => ?_
  refine .bind blind.trans (blind.passFloor frame) fun _ => ?_
  exact .bind blind.trans (blind.leaveRing handle frame) fun _ => removes handle

theorem detachAll (removes : ∀ handle, Respects relation (takeOut handle)) (handles : List Handle) :
    Respects relation (handles.forM fun member => discard (StoreM.detach member)) := by
  refine .forM blind.refl blind.trans handles fun member _ => ?_
  intro store answer final discarded
  obtain ⟨_, detached⟩ := EStateM.discard_eq_ok.mp discarded
  exact blind.detach removes member _ _ _ detached

theorem relocateInteriors (shift : Shift) (member : Handle × FrozenFrame) :
    Respects relation (relocateInteriors shift member) :=
  .forM blind.refl blind.trans member.2.layout.interiors fun _ _ => blind.tryFrame member.1 _

theorem prepare (removes : ∀ handle, Respects relation (takeOut handle)) (handle : Handle) (sp : Word) :
    Respects relation (prepare handle sp) := by
  unfold StoreM.prepare
  refine .bind blind.trans (.ask blind.refl _) fun head => ?_
  refine .bind blind.trans (.ask blind.refl _) fun members => ?_
  refine .bind blind.trans (.ask blind.refl _) fun frame => ?_
  refine .bind blind.trans (blind.relocateInteriors _ _) fun _ => ?_
  refine .bind blind.trans ?_ fun callers => ?_
  · unfold callersOf
    cases frame.caller with
    | none => exact .pure blind.refl _
    | some caller => exact .ask blind.refl _
  refine .bind blind.trans
    (.forM blind.refl blind.trans callers fun member _ => blind.relocateInteriors _ member) fun _ => ?_
  dsimp only
  split
  · exact .bind blind.trans (.forM blind.refl blind.trans members fun member _ => blind.changeFrame member _)
      fun _ => blind.detach removes handle
  · exact blind.detach removes handle

theorem joinAll (handles : List Handle) : Respects relation (joinAll handles) := by
  induction handles with
  | nil => exact .pure blind.refl _
  | cons callee rest ih =>
    cases rest with
    | nil => exact .pure blind.refl _
    | cons caller others =>
      refine .bind blind.trans ?_ fun _ => ih
      exact .bind blind.trans (blind.changeFrame callee _) fun _ => blind.changeFrame caller _

theorem install (inserts : ∀ frame, Respects relation (insert frame)) (frames : List FrozenFrame) :
    Respects relation (install frames) := by
  apply Respects.insisting
  refine .bind blind.trans (.mapM blind.refl blind.trans frames inserts) fun handles => ?_
  exact .bind blind.trans (blind.joinAll handles) fun _ => .pure blind.refl _

theorem age (condemned oldest : Generation) : Respects relation (age condemned oldest) := by
  apply Respects.insisting
  refine .bind blind.trans (.ask blind.refl _) fun heads => ?_
  refine .foldlM blind.refl blind.trans heads _ fun head _ count => ?_
  unfold ageChain
  refine .bind blind.trans (.ask blind.refl _) fun frame => ?_
  split
  · exact .pure blind.refl _
  refine .bind blind.trans (.ask blind.refl _) fun members => ?_
  exact .bind blind.trans (.forM blind.refl blind.trans members fun member _ => blind.tryFrame member _)
    fun _ => .pure blind.refl _

theorem collect {σ : Type} (visit : Visitor σ) (condemned : Generation) (state : σ) :
    Respects relation (visit.chains condemned state) := by
  apply Respects.insisting
  refine .bind blind.trans (.ask blind.refl _) fun heads => ?_
  refine .foldlM blind.refl blind.trans heads _ fun head _ seen => ?_
  unfold Visitor.chain
  refine .bind blind.trans (.ask blind.refl _) fun frame => ?_
  split
  · exact .pure blind.refl _
  refine .bind blind.trans (.ask blind.refl _) fun members => ?_
  refine .foldlM blind.refl blind.trans members _ fun member _ seen => ?_
  unfold Visitor.frame
  refine .bind blind.trans (.ask blind.refl _) fun frame => ?_
  split
  · exact .pure blind.refl _
  refine .bind blind.trans (.ask blind.refl _) fun answer => ?_
  exact .bind blind.trans (.modify fun store => blind.setFrame store member _) fun _ => .pure blind.refl _

theorem rejuvenate (heap : Word → Generation) (condemned oldest : Generation) :
    Respects relation (rejuvenate heap condemned oldest) := by
  apply Respects.insisting
  refine .bind blind.trans (.ask blind.refl _) fun heads => ?_
  refine .foldlM blind.refl blind.trans heads _ fun head _ done => ?_
  unfold Rejuvenation.chain
  refine .bind blind.trans (.ask blind.refl _) fun frame => ?_
  dsimp only
  split
  · exact .pure blind.refl _
  refine .bind blind.trans (.ask blind.refl _) fun members => ?_
  refine .bind blind.trans (.foldlM blind.refl blind.trans members _ fun member _ seen => ?_) fun gathered =>
    .bind blind.trans (blind.changeFrame head _) fun _ => .pure blind.refl _
  unfold Rejuvenation.frame
  refine .bind blind.trans (.ask blind.refl _) fun frame => ?_
  split
  · exact .pure blind.refl _
  refine .bind blind.trans (.ask blind.refl _) fun answer => ?_
  dsimp only
  split
  · exact .bind blind.trans (.modify fun store => blind.setFrame store member _) fun _ => .pure blind.refl _
  · exact .pure blind.refl _

end Blind
end Store

def Operation.Freezes : Operation → Prop
  | .capture _ _ _ _ => True
  | _ => False

namespace Freezer
open Store

variable {relation : Store → Store → Prop} {freezer after : Freezer} {operation : Operation}

theorem perform_inserts (blind : Blind relation) (inserts : ∀ frame, StoreM.Respects relation (StoreM.insert frame))
    (freezes : operation.Freezes) (done : freezer.perform operation = .ok after) :
    relation freezer.store after.store := by
  obtain ⟨ran, _⟩ := perform_ran done
  cases operation with
  | capture memory place frames limit =>
    obtain ⟨_, capture, _, _, stored⟩ := ran
    exact blind.install inserts capture.frames _ _ _ stored
  | _ => exact freezes.elim

theorem perform_removes (blind : Blind relation) (removes : ∀ handle, StoreM.Respects relation (StoreM.takeOut handle))
    (thaws : ¬ operation.Freezes) (done : freezer.perform operation = .ok after) :
    relation freezer.store after.store := by
  obtain ⟨ran, _⟩ := perform_ran done
  have stays (same : after.store = freezer.store) : relation freezer.store after.store := same ▸ blind.refl _
  cases operation with
  | capture memory place frames limit => exact absurd trivial thaws
  | register head => exact blind.register head _ _ _ ran
  | unregister head => exact blind.unregister head _ _ _ ran
  | delete handle =>
    obtain ⟨_, ran⟩ := ran
    exact blind.detach removes handle _ _ _ ran
  | deleteChain head =>
    obtain ⟨members, _, ran⟩ := ran
    exact blind.detachAll removes members.reverse _ _ _ ran
  | resume handle value landing memory =>
    obtain ⟨_, ran⟩ := ran
    exact blind.prepare removes handle landing.sp _ _ _ ran
  | collect visit condemned state =>
    obtain ⟨_, ran⟩ := ran
    exact blind.collect visit condemned state _ _ _ ran
  | age condemned oldest =>
    rcases ran with ⟨_, _, ran⟩ | ⟨_, same⟩
    · exact blind.age condemned oldest _ _ _ ran
    · exact stays same
  | rejuvenate heap condemned oldest =>
    rcases ran with ⟨_, _, ran⟩ | ⟨_, same⟩
    · exact blind.rejuvenate heap condemned oldest _ _ _ ran
    · exact stays same
  | enterQuietScope => exact stays ran
  | leaveQuietScope => exact stays ran

end Freezer
end CallStacks.Frozen
