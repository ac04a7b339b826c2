import CallStacks.Proofs.Survival

/-! Floors in the course of a program. The five operations that write floors do it by five rules, but none
of them tears a chain apart: its frames are active together or not at all, and the floors of a chain that
is not active stay between the youngest generation and the oldest that a program speaks of. -/

namespace CallStacks.Frozen

namespace Generation

variable {floor old middle new oldest limit : Generation}

theorem not_isActive_iff : ¬ floor.isActive ↔ youngest ≤ floor := by
  simp [isActive, youngest]

def Refloored (oldest old new : Generation) : Prop :=
  new = old ∨ youngest ≤ old ∧ youngest ≤ new ∧ new ≤ max old oldest

theorem Refloored.trans (first : Refloored oldest old middle) (second : Refloored oldest middle new) :
    Refloored oldest old new := by
  unfold Refloored at *
  grind

private theorem refloored_of_aged (nonnegative : youngest ≤ oldest) (aged : floor.aged oldest = .ok new) :
    Refloored oldest floor new := by
  obtain ⟨_, same⟩ | ⟨idle, rfl⟩ := aged_cases aged
  · exact .inl same
  · have above : youngest ≤ floor := not_isActive_iff.mp (by simp [idle])
    unfold Refloored
    grind

end Generation

namespace Store

variable {store middle final : Store} {roster : Roster} {chain rest before after : List Handle}
  {handle : Handle} {frame : FrozenFrame} {condemned oldest limit : Generation}

def Refloors (oldest : Generation) (store final : Store) : Prop :=
  ∀ handle floor, final.floor? handle = some floor →
    ∃ old, store.floor? handle = some old ∧ Generation.Refloored oldest old floor

namespace Refloors

private theorem refl (store : Store) : Refloors oldest store store := fun _ floor known => ⟨floor, known, .inl rfl⟩

private theorem trans (first : Refloors oldest store middle) (second : Refloors oldest middle final) :
    Refloors oldest store final := by
  intro handle floor known
  obtain ⟨between, held, later⟩ := second handle floor known
  obtain ⟨old, started, earlier⟩ := first handle between held
  exact ⟨old, started, earlier.trans later⟩

private theorem setFrame (live : store.arena.find? handle = some frame) {changed : FrozenFrame}
    (refloored : Generation.Refloored oldest frame.floor changed.floor) :
    Refloors oldest store (store.setFrame handle changed) := by
  intro other floor known
  rw [floor?, find?_setFrame live] at known
  split at known
  next here =>
    cases known
    exact ⟨frame.floor, here ▸ floor?_of_frame live, refloored⟩
  next => exact ⟨floor, known, .inl rfl⟩

end Refloors

theorem age_refloors (nonnegative : Generation.youngest ≤ oldest) :
    StoreM.Respects (Refloors oldest) (StoreM.age condemned oldest) := by
  apply StoreM.Respects.insisting
  refine .bind Refloors.trans (.ask Refloors.refl _) fun heads => ?_
  refine .foldlM Refloors.refl Refloors.trans heads 0 fun head _ count => ?_
  unfold StoreM.ageChain
  refine .bind Refloors.trans (.ask Refloors.refl _) fun frame => ?_
  split
  · exact .pure Refloors.refl _
  refine .bind Refloors.trans (.ask Refloors.refl _) fun members => ?_
  refine .bind Refloors.trans (.forM Refloors.refl Refloors.trans members fun member _ => ?_)
    fun _ => .pure Refloors.refl _
  intro store answer final done
  obtain ⟨frame, changed, live, ok, rfl⟩ := StoreM.tryFrame_eq_ok.mp done
  obtain ⟨raised, rose, same⟩ := CallStacks.Failure.bind_eq_ok.mp ok
  cases same
  exact .setFrame live (Generation.refloored_of_aged nonnegative (CallStacks.Failure.ofStop_eq_ok.mp rose))

end Store

namespace Rejuvenation
open Store

variable {store final : Store} {handle head : Handle} {heap : Word → Generation} {condemned oldest : Generation}

private theorem youngest_ge {layout : Layout} {buffer : Buffer} {offsets : List UInt32} {floor lowered : Generation}
    {asked : List Word} (done : youngest heap oldest layout buffer offsets floor = .ok (lowered, asked))
    (idle : Generation.youngest ≤ floor) : Generation.youngest ≤ lowered := by
  induction offsets generalizing floor asked with
  | nil =>
    cases done
    exact idle
  | cons offset rest ih =>
    unfold youngest at done
    split at done
    · cases done
      exact idle
    obtain ⟨referent, _, done⟩ := CallStacks.Failure.bind_eq_ok.mp done
    split at done
    · exact ih done idle
    obtain ⟨generation, bounded, done⟩ := CallStacks.Failure.bind_eq_ok.mp done
    obtain ⟨⟨lowest, words⟩, later, done⟩ := CallStacks.Failure.bind_eq_ok.mp done
    cases done
    have bounded := CallStacks.Failure.ofStop_eq_ok.mp bounded
    unfold Generation.bounded at bounded
    split at bounded
    · cases bounded
    cases bounded
    refine ih later (Int.le_min.mpr ⟨idle, Int.le_min.mpr ⟨Int.le_max_left _ _, ?_⟩⟩)
    exact Int.not_lt.mp ‹_›

private theorem frame_refloors {seen answer : Generation × Rejuvenation} (idle : Generation.youngest ≤ seen.1)
    (done : Rejuvenation.frame heap oldest seen handle store = .ok answer final) :
    Generation.youngest ≤ answer.1 ∧ Refloors oldest store final := by
  unfold Rejuvenation.frame at done
  obtain ⟨frame, _, asked, done⟩ := EStateM.bind_eq_ok.mp done
  obtain ⟨known, rfl⟩ := StoreM.ask_eq_ok.mp asked
  split at done
  · obtain ⟨rfl, rfl⟩ := EStateM.pure_eq_ok.mp done
    exact ⟨idle, .refl store⟩
  next still =>
  have still : Generation.youngest ≤ frame.floor := Generation.not_isActive_iff.mp still
  obtain ⟨⟨floor, words⟩, _, asked, done⟩ := EStateM.bind_eq_ok.mp done
  obtain ⟨gathered, rfl⟩ := StoreM.ask_eq_ok.mp asked
  have above := youngest_ge gathered still
  have below := youngest_le gathered
  dsimp only at done
  split at done
  · obtain ⟨_, middle, changed, done⟩ := EStateM.bind_eq_ok.mp done
    obtain rfl := EStateM.modify_eq_ok.mp changed
    obtain ⟨rfl, rfl⟩ := EStateM.pure_eq_ok.mp done
    exact ⟨Int.le_min.mpr ⟨idle, above⟩, .setFrame (StoreM.frame_eq_ok.mp known)
      (.inr ⟨still, above, Int.le_trans below (Int.le_max_left _ _)⟩)⟩
  · obtain ⟨rfl, rfl⟩ := EStateM.pure_eq_ok.mp done
    exact ⟨Int.le_min.mpr ⟨idle, above⟩, .refl store⟩

private theorem frames_refloors {handles : List Handle} {seen answer : Generation × Rejuvenation}
    (idle : Generation.youngest ≤ seen.1)
    (done : handles.foldlM (Rejuvenation.frame heap oldest) seen store = .ok answer final) :
    Generation.youngest ≤ answer.1 ∧ Refloors oldest store final := by
  induction handles generalizing seen store with
  | nil =>
    obtain ⟨rfl, rfl⟩ := EStateM.pure_eq_ok.mp done
    exact ⟨idle, .refl store⟩
  | cons first rest ih =>
    rw [List.foldlM_cons] at done
    obtain ⟨next, middle, ran, done⟩ := EStateM.bind_eq_ok.mp done
    obtain ⟨idle, here⟩ := frame_refloors idle ran
    obtain ⟨idle, there⟩ := ih idle done
    exact ⟨idle, here.trans there⟩

private theorem chain_refloors (heap : Word → Generation) (condemned oldest : Generation) (seen : Rejuvenation)
    (head : Handle) : StoreM.Respects (Refloors oldest) (Rejuvenation.chain heap oldest condemned seen head) := by
  intro store answer final done
  unfold Rejuvenation.chain at done
  obtain ⟨frame, _, asked, done⟩ := EStateM.bind_eq_ok.mp done
  obtain ⟨known, rfl⟩ := StoreM.ask_eq_ok.mp asked
  dsimp only at done
  split at done
  · obtain ⟨_, rfl⟩ := EStateM.pure_eq_ok.mp done
    exact .refl store
  next takesPart =>
  have above : Generation.youngest < frame.floor := by
    simp only [Bool.or_eq_true, decide_eq_true_eq, not_or, Int.not_le] at takesPart
    exact takesPart.1
  obtain ⟨members, _, asked, done⟩ := EStateM.bind_eq_ok.mp done
  obtain ⟨_, rfl⟩ := StoreM.ask_eq_ok.mp asked
  obtain ⟨⟨lowest, seen'⟩, middle, lowered, done⟩ := EStateM.bind_eq_ok.mp done
  obtain ⟨_, last, changed, done⟩ := EStateM.bind_eq_ok.mp done
  obtain ⟨_, rfl⟩ := EStateM.pure_eq_ok.mp done
  obtain ⟨headFrame, live, rfl⟩ := StoreM.changeFrame_eq_ok.mp changed
  obtain ⟨idle, refloors⟩ := frames_refloors (Int.le_of_lt above) lowered
  -- the head was not active before its chain was gone through, so it is not now
  obtain ⟨old, started, refloored⟩ := refloors head headFrame.floor (floor?_of_frame live)
  obtain rfl : frame.floor = old := by
    rw [floor?_of_frame (StoreM.frame_eq_ok.mp known)] at started
    exact Option.some.inj started
  have still : Generation.youngest ≤ headFrame.floor := by
    rcases refloored with same | ⟨_, above, _⟩
    · exact same ▸ Int.le_of_lt above
    · exact above
  exact refloors.trans (.setFrame live (.inr ⟨still, Int.le_min.mpr ⟨still, idle⟩,
    Int.le_trans (Int.min_le_left _ _) (Int.le_max_left _ _)⟩))

theorem rejuvenate_refloors (heap : Word → Generation) (condemned oldest : Generation) :
    StoreM.Respects (Refloors oldest) (StoreM.rejuvenate heap condemned oldest) := by
  apply StoreM.Respects.insisting
  refine .bind Refloors.trans (.ask Refloors.refl _) fun heads => ?_
  exact .foldlM Refloors.refl Refloors.trans heads _ fun head _ done => chain_refloors heap condemned oldest done head

end Rejuvenation

namespace Store

variable {store middle final : Store} {roster : Roster} {chain rest before after : List Handle}
  {handle : Handle} {oldest limit : Generation}

/-- The frames of a chain are active together, or none is and their floors are generations up to a limit. -/
def Uniform (limit : Generation) (store : Store) (chain : List Handle) : Prop :=
  (∀ floor ∈ store.floors chain, floor = Generation.active) ∨
    ∀ floor ∈ store.floors chain, Generation.youngest ≤ floor ∧ floor ≤ limit

namespace Uniform

private theorem subset (uniform : Uniform limit store chain)
    (within : ∀ floor ∈ final.floors rest, floor ∈ store.floors chain) : Uniform limit final rest :=
  uniform.imp (fun all floor inside => all floor (within floor inside))
    fun all floor inside => all floor (within floor inside)

private theorem congr (uniform : Uniform limit store chain)
    (same : ∀ member ∈ chain, final.floor? member = store.floor? member) : Uniform limit final chain := by
  apply uniform.subset
  intro floor inside
  rwa [floors, List.filterMap_congr same] at inside

private theorem refloored (uniform : Uniform limit store chain) (refloors : Refloors oldest store final)
    (low : oldest ≤ limit) : Uniform limit final chain := by
  have back : ∀ floor ∈ final.floors chain, ∃ old ∈ store.floors chain, Generation.Refloored oldest old floor := by
    intro floor inside
    obtain ⟨member, within, known⟩ := List.mem_filterMap.mp inside
    obtain ⟨old, held, refloored⟩ := refloors member floor known
    exact ⟨old, List.mem_filterMap.mpr ⟨member, within, held⟩, refloored⟩
  rcases uniform with active | idle
  · refine .inl fun floor inside => ?_
    obtain ⟨old, held, refloored⟩ := back floor inside
    have still := active old held
    unfold Generation.Refloored Generation.youngest Generation.active at *
    grind
  · refine .inr fun floor inside => ?_
    obtain ⟨old, held, refloored⟩ := back floor inside
    have bounds := idle old held
    unfold Generation.Refloored at refloored
    grind

end Uniform

private theorem floors_of_detached (distinct : roster.members.Nodup)
    (member : before ++ handle :: after ∈ roster.chains)
    (detached : Detached store before handle after final) (inside : chain ∈ roster.chains) :
    ∀ floor ∈ final.floors (chain.filter (· ∉ [handle])), floor ∈ store.floors chain := by
  intro floor now
  obtain ⟨other, within, known⟩ := List.mem_filterMap.mp now
  obtain ⟨within, different⟩ : other ∈ chain ∧ other ≠ handle := by simpa using within
  rw [detached.floor other different] at known
  split at known
  next heads =>
    have shared := eq_of_shared distinct inside member within
      (List.mem_append_left _ (List.mem_of_getLast? heads.2))
    obtain ⟨low, below, held⟩ := List.mem_filterMap.mp (List.min?_eq_some_iff.mp known).1
    rw [shared]
    exact List.mem_filterMap.mpr ⟨low, List.mem_append_left _ below, held⟩
  next => exact List.mem_filterMap.mpr ⟨other, within, known⟩

structure Graded (limit : Generation) (store : Store) (roster : Roster) : Prop extends Valid store roster where
  uniform : ∀ chain ∈ roster.chains, Uniform limit store chain

namespace Graded

theorem empty : Graded limit {} {} := ⟨.empty, by simp [Roster.chains]⟩

private theorem detached (graded : Graded limit store roster) (member : before ++ handle :: after ∈ roster.chains)
    {woken : Store} (uniform : ∀ chain ∈ roster.chains, Uniform limit woken chain)
    (detached : Detached woken before handle after final) (valid : Valid final (roster.without [handle])) :
    Graded limit final (roster.without [handle]) := by
  refine ⟨valid, fun chain inside => ?_⟩
  rw [Roster.chains_without, mem_thinned] at inside
  obtain ⟨_, whole, inside, rfl⟩ := inside
  exact (uniform whole inside).subset (floors_of_detached graded.distinct member detached inside)

theorem arranged (graded : Graded limit store roster) {arranged : Roster} (agrees : Agrees FrozenFrame.offRing store final)
    (same : arranged.chains.Perm roster.chains) (valid : Valid final arranged) : Graded limit final arranged := by
  have floors : Agrees FrozenFrame.floor store final := agrees.coarsen _ (·.floor) fun _ => rfl
  exact ⟨valid, fun chain inside => (graded.uniform chain (same.mem_iff.mp inside)).congr
    fun member _ => floors.frames member⟩

theorem refloored (graded : Graded limit store roster) (refloors : Refloors oldest store final)
    (low : oldest ≤ limit) (valid : Valid final roster) : Graded limit final roster :=
  ⟨valid, fun chain inside => (graded.uniform chain inside).refloored refloors low⟩

theorem repainted (graded : Graded limit store roster) (kept : Undisturbed FrozenFrame.offBytes store final) :
    Graded limit final roster := by
  have floors : Undisturbed FrozenFrame.floor store final := kept.coarsen _ (·.floor) fun _ => rfl
  exact ⟨graded.toValid.repainted kept, fun chain inside => (graded.uniform chain inside).congr
    fun member _ => floors.frames member⟩

theorem detach (graded : Graded limit store roster) {removed : FrozenFrame}
    (done : StoreM.detach handle store = .ok removed final) : Graded limit final (roster.without [handle]) := by
  obtain ⟨before, after, member, valid, detached⟩ := detached_of_detach graded.toValid done
  exact graded.detached member graded.uniform detached valid

theorem thawed (graded : Graded limit store roster) {removed : FrozenFrame} {sp : Word}
    (thawed : Thawed store roster handle sp removed final) : Graded limit final (roster.without [handle]) := by
  obtain ⟨before, after, _, _, member, _⟩ := thawed.moved
  obtain ⟨woken, wakes, detached⟩ := thawed.left before after member
  refine graded.detached member (fun chain inside => ?_) detached thawed.valid
  have floors := wakes.floors
  split at floors
  · by_cases same : chain = before ++ handle :: after
    · refine .inl fun floor within => ?_
      obtain ⟨other, inner, known⟩ := List.mem_filterMap.mp within
      exact (Option.some.inj ((floors other (same ▸ inner)).symm.trans known)).symm
    · refine (graded.uniform chain inside).congr fun other within => wakes.others other fun shared => ?_
      exact same (eq_of_shared graded.distinct inside member within shared)
  · exact (graded.uniform chain inside).congr fun other _ => floors other

theorem install (nonnegative : Generation.youngest ≤ limit) (graded : Graded limit store roster)
    {frames : List FrozenFrame} {answer : Option Chain} (fresh : ∀ frame ∈ frames, frame.Fresh)
    (done : StoreM.install frames store = .ok answer final) :
    ∃ handles, Graded limit final (roster.add handles) := by
  obtain ⟨handles, _, installed, valid⟩ := install_valid graded.toValid fresh done
  refine ⟨handles, valid, fun chain inside => ?_⟩
  rcases Roster.mem_chains_add.mp inside with ⟨rfl, _⟩ | inside
  · refine .inr fun floor within => ?_
    obtain ⟨handle, inner, known⟩ := List.mem_filterMap.mp within
    rw [installed.floor? fresh inner] at known
    cases known
    exact ⟨Int.le_refl _, nonnegative⟩
  · exact (graded.uniform chain inside).congr fun member within =>
      installed.floor?_of_live (graded.live_of_mem inside within)

end Graded
end Store
end CallStacks.Frozen
