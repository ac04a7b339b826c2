import CallStacks.Frozen.Collector
import CallStacks.Proofs.RosterRuns

/-! How floors are kept. Aging raises the floors of a chain together and rejuvenation lowers its
head's with the lowest of them, so after either the head still carries the lowest floor. -/

namespace CallStacks.Frozen

namespace Generation

variable {floor other raised otherRaised oldest : Generation}

theorem aged_cases (aged : floor.aged oldest = .ok raised) :
    floor.isActive = true ∧ raised = floor ∨ floor.isActive = false ∧ raised = min (floor + 1) oldest := by
  unfold Generation.aged at aged
  split at aged
  next active =>
    cases aged
    exact .inl ⟨active, rfl⟩
  next idle =>
    split at aged
    · cases aged
    · cases aged
      exact .inr ⟨by simpa using idle, rfl⟩

theorem isActive_mono (below : floor ≤ other) (idle : floor.isActive = false) : other.isActive = false := by
  simp only [isActive, decide_eq_false_iff_not, Int.not_lt] at idle ⊢
  exact Int.le_trans idle below

private theorem aged_mono (idle : floor.isActive = false) (below : floor ≤ other)
    (aged : floor.aged oldest = .ok raised)
    (agedOther : other.aged oldest = .ok otherRaised) : raised ≤ otherRaised := by
  obtain ⟨active, _⟩ | ⟨_, rfl⟩ := aged_cases aged
  · simp [idle] at active
  obtain ⟨active, _⟩ | ⟨_, rfl⟩ := aged_cases agedOther
  · simp [isActive_mono below idle] at active
  exact Int.le_min.mpr ⟨Int.le_trans (Int.min_le_left _ _) (Int.add_le_add_right below 1), Int.min_le_right _ _⟩

end Generation

namespace Store

variable {store middle final : Store} {roster : Roster} {chain before : List Handle}
  {handle head : Handle} {frame : FrozenFrame} {condemned oldest : Generation}

theorem ageFrame_undisturbed (oldest : Generation) (handle : Handle) :
    StoreM.Respects (Undisturbed FrozenFrame.offFloor) (StoreM.ageFrame oldest handle) := by
  apply StoreM.tryFrame_undisturbed
  intro frame changed aged
  obtain ⟨raised, aged, same⟩ := CallStacks.Failure.bind_eq_ok.mp aged
  cases same
  rfl

def Raised (oldest : Generation) (store final : Store) (handle : Handle) : Prop :=
  ∃ floor raised, store.floor? handle = some floor ∧ floor.aged oldest = .ok raised ∧
    final.floor? handle = some raised

private theorem ageFrame_spec {handles : List Handle} (distinct : handles.Nodup)
    (done : handles.forM (StoreM.ageFrame oldest) store = .ok () final) :
    (∀ handle ∈ handles, Raised oldest store final handle) ∧
    (∀ other, other ∉ handles → final.floor? other = store.floor? other) ∧
    Undisturbed FrozenFrame.offFloor store final := by
  obtain ⟨each, others⟩ := forM_tryFrame_spec distinct done
  refine ⟨fun handle within => ?_, fun other outside => ?_, ?_⟩
  · obtain ⟨frame, changed, live, aged, live'⟩ := each handle within
    obtain ⟨raised, rose, same⟩ := CallStacks.Failure.bind_eq_ok.mp aged
    cases same
    exact ⟨frame.floor, raised, floor?_of_frame live, CallStacks.Failure.ofStop_eq_ok.mp rose, floor?_of_frame live'⟩
  · rw [floor?, others other outside, floor?]
  · exact StoreM.Respects.forM Undisturbed.refl Undisturbed.trans handles
      (fun handle _ => ageFrame_undisturbed oldest handle) store () final done

/-- The head of a chain is neither active nor above the condemned generation. -/
def TakesPart (store : Store) (condemned : Generation) (chain : List Handle) : Prop :=
  ∃ head floor, chain.getLast? = some head ∧ store.floor? head = some floor ∧ floor.isActive = false ∧
    floor ≤ condemned

theorem takesPart_iff (live : store.arena.find? head = some frame) :
    store.TakesPart condemned (before ++ [head]) ↔ frame.floor.isActive = false ∧ frame.floor ≤ condemned := by
  simp [TakesPart, floor?, live]

theorem ageChain_cases {count answer : Nat} (valid : Valid store roster)
    (member : before ++ [head] ∈ roster.chains)
    (done : StoreM.ageChain condemned oldest count head store = .ok answer final) :
    ¬ store.TakesPart condemned (before ++ [head]) ∧ final = store ∨
      store.TakesPart condemned (before ++ [head]) ∧
        (∀ handle ∈ before ++ [head], Raised oldest store final handle) ∧
        (∀ other, other ∉ before ++ [head] → final.floor? other = store.floor? other) ∧
        Undisturbed FrozenFrame.offFloor store final := by
  unfold StoreM.ageChain at done
  obtain ⟨frame, _, asked, done⟩ := EStateM.bind_eq_ok.mp done
  obtain ⟨known, rfl⟩ := StoreM.ask_eq_ok.mp asked
  rw [takesPart_iff (StoreM.frame_eq_ok.mp known)]
  split at done
  next exempt =>
    obtain ⟨_, rfl⟩ := EStateM.pure_eq_ok.mp done
    exact .inl ⟨by simpa [Classical.or_iff_not_imp_left] using exempt, rfl⟩
  next takesPart =>
    obtain ⟨members, _, asked, done⟩ := EStateM.bind_eq_ok.mp done
    obtain ⟨listed, rfl⟩ := StoreM.ask_eq_ok.mp asked
    obtain ⟨_, middle, aged, done⟩ := EStateM.bind_eq_ok.mp done
    obtain ⟨_, rfl⟩ := EStateM.pure_eq_ok.mp done
    rw [chainMembers_eq (valid.linked _ member) (valid.chain_distinct member)] at listed
    cases listed
    have distinct : (head :: before.reverse).Nodup := by
      simpa using List.nodup_reverse.mpr (valid.chain_distinct member)
    have within : ∀ other, other ∈ head :: before.reverse ↔ other ∈ before ++ [head] := by simp [or_comm]
    obtain ⟨each, others, kept⟩ := ageFrame_spec distinct aged
    refine .inr ⟨by simpa using takesPart, fun other inside => each other ((within other).mpr inside),
      fun other outside => others other (by rwa [within]), kept⟩

theorem ageChain_valid {count answer : Nat} (valid : Valid store roster)
    (member : before ++ [head] ∈ roster.chains)
    (done : StoreM.ageChain condemned oldest count head store = .ok answer final) :
    Valid final roster := by
  rcases ageChain_cases valid member done with ⟨_, rfl⟩ | ⟨⟨leader, floor, last, here, idle, _⟩, each, others, kept⟩
  · exact valid
  obtain rfl : head = leader := by simpa using last
  refine valid.refloored member kept ?_ others
  intro leader same raised now other inside
  obtain rfl : head = leader := by simpa using same
  obtain ⟨_, _, known, rose, after⟩ := each head (by simp)
  obtain rfl := Option.some.inj (here.symm.trans known)
  obtain rfl := Option.some.inj (after.symm.trans now)
  obtain ⟨lower, inner, later⟩ := List.mem_filterMap.mp inside
  obtain ⟨old, _, known', rose', after'⟩ := each lower inner
  obtain rfl := Option.some.inj (after'.symm.trans later)
  have below := valid.lowest _ member head last _ here old (List.mem_filterMap.mpr ⟨lower, inner, known'⟩)
  exact Generation.aged_mono idle below rose rose'

theorem age_undisturbed (condemned oldest : Generation) :
    StoreM.Respects (Undisturbed FrozenFrame.offFloor) (StoreM.age condemned oldest) := by
  apply StoreM.Respects.insisting
  refine .bind Undisturbed.trans (.ask Undisturbed.refl _) fun heads => ?_
  refine .foldlM Undisturbed.refl Undisturbed.trans heads 0 fun head _ count => ?_
  unfold StoreM.ageChain
  refine .bind Undisturbed.trans (.ask Undisturbed.refl _) fun frame => ?_
  split
  · exact .pure Undisturbed.refl _
  refine .bind Undisturbed.trans (.ask Undisturbed.refl _) fun members => ?_
  exact .bind Undisturbed.trans (.forM Undisturbed.refl Undisturbed.trans members
    fun member _ => ageFrame_undisturbed oldest member) fun _ => .pure Undisturbed.refl _

/-- Every head carries the lowest floor of its chain also after aging. -/
theorem age_valid {answer : Nat} (valid : Valid store roster)
    (done : StoreM.age condemned oldest store = .ok answer final) : Valid final roster := by
  unfold StoreM.age at done
  obtain ⟨heads, _, asked, done⟩ := EStateM.bind_eq_ok.mp (StoreM.insisting_eq_ok.mp done)
  obtain ⟨listed, rfl⟩ := StoreM.ask_eq_ok.mp asked
  rw [valid.heads_eq] at listed
  cases listed
  refine StoreM.foldlM_invariant (Valid · roster) done valid fun head within seen answer store final valid done => ?_
  obtain ⟨before, member⟩ := Represents.mem_heads_iff.mp within
  exact ageChain_valid valid (List.mem_append_left _ member) done

end Store

namespace Rejuvenation
open Store

variable {store middle final : Store} {roster : Roster} {chain before : List Handle}
  {handle head : Handle} {frame : FrozenFrame} {condemned oldest : Generation} {heap : Word → Generation}

theorem youngest_le {layout : Layout} {buffer : Buffer} {offsets : List UInt32}
    {floor lowered : Generation} {asked : List Word}
    (done : youngest heap oldest layout buffer offsets floor = .ok (lowered, asked)) : lowered ≤ floor := by
  induction offsets generalizing floor asked with
  | nil =>
    cases done
    exact Int.le_refl _
  | cons offset rest ih =>
    unfold youngest at done
    split at done
    · cases done
      exact Int.le_refl _
    obtain ⟨referent, _, done⟩ := CallStacks.Failure.bind_eq_ok.mp done
    split at done
    · exact ih done
    obtain ⟨generation, _, done⟩ := CallStacks.Failure.bind_eq_ok.mp done
    obtain ⟨⟨lowest, words⟩, later, done⟩ := CallStacks.Failure.bind_eq_ok.mp done
    cases done
    exact Int.le_trans (ih later) (Int.min_le_left _ _)

theorem frame_undisturbed (heap : Word → Generation) (oldest : Generation) (seen : Generation × Rejuvenation)
    (handle : Handle) :
    StoreM.Respects (Undisturbed FrozenFrame.offFloor) (Rejuvenation.frame heap oldest seen handle) := by
  intro store answer final done
  unfold Rejuvenation.frame at done
  obtain ⟨frame, _, asked, done⟩ := EStateM.bind_eq_ok.mp done
  obtain ⟨known, rfl⟩ := StoreM.ask_eq_ok.mp asked
  split at done
  · obtain ⟨_, rfl⟩ := EStateM.pure_eq_ok.mp done
    exact .refl store
  obtain ⟨⟨floor, words⟩, _, asked, done⟩ := EStateM.bind_eq_ok.mp done
  obtain ⟨_, rfl⟩ := StoreM.ask_eq_ok.mp asked
  dsimp only at done
  split at done
  · obtain ⟨_, middle, changed, done⟩ := EStateM.bind_eq_ok.mp done
    obtain rfl := EStateM.modify_eq_ok.mp changed
    obtain ⟨_, rfl⟩ := EStateM.pure_eq_ok.mp done
    exact .setFrame (StoreM.frame_eq_ok.mp known) rfl
  · obtain ⟨_, rfl⟩ := EStateM.pure_eq_ok.mp done
    exact .refl store

/-- A member ends no higher than it was and no lower than the floor gathered so far. -/
theorem frame_spec {seen answer : Generation × Rejuvenation}
    (idle : ∀ floor, store.floor? handle = some floor → floor.isActive = false)
    (done : Rejuvenation.frame heap oldest seen handle store = .ok answer final) :
    answer.1 ≤ seen.1 ∧
    (∀ floor, final.floor? handle = some floor → answer.1 ≤ floor) ∧
    ∀ other, other ≠ handle → final.floor? other = store.floor? other := by
  unfold Rejuvenation.frame at done
  obtain ⟨frame, _, asked, done⟩ := EStateM.bind_eq_ok.mp done
  obtain ⟨known, rfl⟩ := StoreM.ask_eq_ok.mp asked
  have live := StoreM.frame_eq_ok.mp known
  have still : store.floor? handle = some frame.floor := floor?_of_frame live
  rw [if_neg (by simp [idle _ still])] at done
  obtain ⟨⟨floor, words⟩, _, asked, done⟩ := EStateM.bind_eq_ok.mp done
  obtain ⟨gathered, rfl⟩ := StoreM.ask_eq_ok.mp asked
  dsimp only at done
  split at done
  next lower =>
    obtain ⟨_, middle, changed, done⟩ := EStateM.bind_eq_ok.mp done
    obtain rfl := EStateM.modify_eq_ok.mp changed
    obtain ⟨rfl, rfl⟩ := EStateM.pure_eq_ok.mp done
    refine ⟨Int.min_le_left _ _, fun other now => ?_, fun other different => ?_⟩
    · rw [floor?, find?_setFrame live, if_pos rfl] at now
      cases now
      exact Int.min_le_right _ _
    · rw [floor?, find?_setFrame live, if_neg different, floor?]
  next =>
    obtain ⟨rfl, rfl⟩ := EStateM.pure_eq_ok.mp done
    refine ⟨Int.min_le_left _ _, fun other now => ?_, fun _ _ => rfl⟩
    obtain rfl : frame.floor = other := Option.some.inj (still.symm.trans now)
    exact Int.le_trans (Int.min_le_right _ _) (youngest_le gathered)

/-- Lowering members one after another gathers a floor that none of them lies below. -/
theorem frames_spec {handles : List Handle} {seen answer : Generation × Rejuvenation}
    (distinct : handles.Nodup)
    (idle : ∀ handle ∈ handles, ∀ floor, store.floor? handle = some floor → floor.isActive = false)
    (done : handles.foldlM (Rejuvenation.frame heap oldest) seen store = .ok answer final) :
    answer.1 ≤ seen.1 ∧
    (∀ handle ∈ handles, ∀ floor, final.floor? handle = some floor → answer.1 ≤ floor) ∧
    ∀ other, other ∉ handles → final.floor? other = store.floor? other := by
  induction handles generalizing seen store with
  | nil =>
    obtain ⟨rfl, rfl⟩ := EStateM.pure_eq_ok.mp done
    exact ⟨Int.le_refl _, by simp, fun _ _ => rfl⟩
  | cons first rest ih =>
    obtain ⟨fresh, distinct⟩ := List.nodup_cons.mp distinct
    rw [List.foldlM_cons] at done
    obtain ⟨next, middle, ran, done⟩ := EStateM.bind_eq_ok.mp done
    obtain ⟨below, here, others⟩ := frame_spec (idle first (by simp)) ran
    obtain ⟨below', there, others'⟩ := ih distinct (fun handle within floor known => by
      rw [others handle fun same => fresh (same ▸ within)] at known
      exact idle handle (by simp [within]) floor known) done
    refine ⟨Int.le_trans below' below, fun handle within floor now => ?_, fun other outside => ?_⟩
    · rcases List.mem_cons.mp within with rfl | within
      · rw [others' handle fresh] at now
        exact Int.le_trans below' (here floor now)
      · exact there handle within floor now
    · simp only [List.mem_cons, not_or] at outside
      rw [others' other outside.2, others other outside.1]

theorem chain_valid {seen answer : Rejuvenation} (valid : Valid store roster)
    (member : before ++ [head] ∈ roster.chains)
    (done : Rejuvenation.chain heap oldest condemned seen head store = .ok answer final) :
    Valid final roster := by
  unfold Rejuvenation.chain at done
  obtain ⟨frame, _, asked, done⟩ := EStateM.bind_eq_ok.mp done
  obtain ⟨known, rfl⟩ := StoreM.ask_eq_ok.mp asked
  have live := StoreM.frame_eq_ok.mp known
  dsimp only at done
  split at done
  · obtain ⟨_, rfl⟩ := EStateM.pure_eq_ok.mp done
    exact valid
  next takesPart =>
  obtain ⟨members, _, asked, done⟩ := EStateM.bind_eq_ok.mp done
  obtain ⟨listed, rfl⟩ := StoreM.ask_eq_ok.mp asked
  obtain ⟨⟨lowest, seen'⟩, middle, lowered, done⟩ := EStateM.bind_eq_ok.mp done
  obtain ⟨_, last, changed, done⟩ := EStateM.bind_eq_ok.mp done
  obtain ⟨_, rfl⟩ := EStateM.pure_eq_ok.mp done
  obtain ⟨headFrame, liveHead, rfl⟩ := StoreM.changeFrame_eq_ok.mp changed
  rw [chainMembers_eq (valid.linked _ member) (valid.chain_distinct member)] at listed
  cases listed
  have distinct : (head :: before.reverse).Nodup := by
    simpa using List.nodup_reverse.mpr (valid.chain_distinct member)
  have within : ∀ other, other ∈ head :: before.reverse ↔ other ∈ before ++ [head] := by simp [or_comm]
  have positive : Generation.youngest < frame.floor := by
    simp only [Bool.or_eq_true, decide_eq_true_eq, not_or, Int.not_le] at takesPart
    exact takesPart.1
  have kept := StoreM.Respects.foldlM Undisturbed.refl Undisturbed.trans _ _
    (fun member _ seen => frame_undisturbed heap oldest seen member) _ _ _ lowered
  obtain ⟨below, each, others⟩ := frames_spec distinct (fun handle inner floor known => by
    have least := valid.lowest _ member head (by simp) frame.floor (floor?_of_frame live) floor
      (List.mem_filterMap.mpr ⟨handle, (within handle).mp inner, known⟩)
    simp only [Generation.isActive, decide_eq_false_iff_not, Int.not_lt]
    exact Int.le_of_lt (Int.lt_of_lt_of_le positive least)) lowered
  have now : ∀ other, (middle.setFrame head { headFrame with floor := min headFrame.floor lowest }).floor? other =
      if other = head then some (min headFrame.floor lowest) else middle.floor? other := by
    intro other
    rw [floor?, find?_setFrame liveHead]
    split <;> rfl
  refine valid.refloored member (kept.trans (.setFrame liveHead rfl)) ?_ fun other outside => ?_
  · intro leader last floor atHead other inside
    obtain rfl : head = leader := by simpa using last
    rw [now, if_pos rfl, Option.some.injEq] at atHead
    obtain ⟨handle, inner, known⟩ := List.mem_filterMap.mp inside
    rw [now] at known
    split at known
    · exact Int.le_of_eq (atHead.symm.trans (Option.some.inj known))
    · rw [← atHead]
      exact Int.le_trans (Int.min_le_right _ _) (each handle ((within handle).mpr inner) other known)
  · have different : other ≠ head := fun same => outside (by simp [same])
    rw [now, if_neg different, others other (by rwa [within])]

theorem rejuvenate_undisturbed (heap : Word → Generation) (condemned oldest : Generation) :
    StoreM.Respects (Undisturbed FrozenFrame.offFloor) (StoreM.rejuvenate heap condemned oldest) := by
  apply StoreM.Respects.insisting
  refine .bind Undisturbed.trans (.ask Undisturbed.refl _) fun heads => ?_
  refine .foldlM Undisturbed.refl Undisturbed.trans heads _ fun head _ done => ?_
  unfold Rejuvenation.chain
  refine .bind Undisturbed.trans (.ask Undisturbed.refl _) fun frame => ?_
  dsimp only
  split
  · exact .pure Undisturbed.refl _
  refine .bind Undisturbed.trans (.ask Undisturbed.refl _) fun members => ?_
  refine .bind Undisturbed.trans (.foldlM Undisturbed.refl Undisturbed.trans members _
    fun member _ seen => frame_undisturbed heap oldest seen member) fun gathered => ?_
  refine .bind Undisturbed.trans ?_ fun _ => .pure Undisturbed.refl _
  apply StoreM.changeFrame_undisturbed
  intro _
  rfl

theorem rejuvenate_valid {answer : Rejuvenation} (valid : Valid store roster)
    (done : StoreM.rejuvenate heap condemned oldest store = .ok answer final) : Valid final roster := by
  unfold StoreM.rejuvenate at done
  obtain ⟨heads, _, asked, done⟩ := EStateM.bind_eq_ok.mp (StoreM.insisting_eq_ok.mp done)
  obtain ⟨listed, rfl⟩ := StoreM.ask_eq_ok.mp asked
  rw [valid.heads_eq] at listed
  cases listed
  refine StoreM.foldlM_invariant (Valid · roster) done valid fun head within seen answer store final valid done => ?_
  obtain ⟨before, member⟩ := Represents.mem_heads_iff.mp within
  exact chain_valid valid (List.mem_append_left _ member) done

end Rejuvenation
end CallStacks.Frozen
