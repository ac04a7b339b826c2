import CallStacks.Proofs.FloorSafety

/-! What aging makes of floors that lie below the referents. The head of a chain decides for the whole chain, so
a frame is also raised when its floor lies above the condemned generation, where nothing moves. Such a floor can
get past a referent. The floor of a head cannot, not even past the referents of its callees. -/

namespace CallStacks.Frozen

namespace Generation

variable {floor raised generation condemned oldest : Generation}

/-- Where a collection leaves an object: what was condemned gets one older, up to the oldest generation. -/
def promoted (generation condemned oldest : Generation) : Generation :=
  if generation ≤ condemned ∧ generation < oldest then generation + 1 else generation

private theorem le_promoted (generation condemned oldest : Generation) :
    generation ≤ generation.promoted condemned oldest := by
  unfold promoted
  split
  · exact Int.le_add_one (Int.le_refl _)
  · exact Int.le_refl _

/-- A floor is raised past an object exactly if it is as old as the object and the object is not promoted. -/
theorem aged_le_promoted_iff (idle : floor.isActive = false) (below : floor ≤ generation)
    (aged : floor.aged oldest = .ok raised) : raised ≤ generation.promoted condemned oldest ↔
      ¬ (condemned < floor ∧ floor < oldest ∧ generation = floor) := by
  obtain ⟨active, _⟩ | ⟨_, rfl⟩ := aged_cases aged
  · simp [idle] at active
  · unfold promoted Generation at *
    split <;> omega

private theorem isActive_of_aged (nonnegative : youngest ≤ oldest) (aged : floor.aged oldest = .ok raised) :
    raised.isActive = floor.isActive := by
  obtain ⟨_, rfl⟩ | ⟨idle, rfl⟩ := aged_cases aged
  · rfl
  · rw [idle]
    simp only [isActive, youngest, decide_eq_false_iff_not] at *
    grind

end Generation

/-- The words in the root slots of a frame, without null words. -/
def FrozenFrame.referents (frame : FrozenFrame) : List Word :=
  (frame.layout.roots.filterMap fun root =>
    (frame.layout.bufferOffset root.offset >>= frame.buffer.read).toOption).filter (· ≠ 0)

def FrozenFrame.Tight (frame : FrozenFrame) (heap : Word → Generation) (condemned oldest : Generation) : Prop :=
  condemned < frame.floor ∧ frame.floor < oldest ∧ ∃ word ∈ frame.referents, heap word = frame.floor

def collected (heap : Word → Generation) (condemned oldest : Generation) (word : Word) : Generation :=
  (heap word).promoted condemned oldest

namespace Store

variable {store middle final : Store} {roster : Roster} {chain before : List Handle} {chains : List (List Handle)}
  {handle head : Handle} {frame : FrozenFrame} {heap : Word → Generation} {word : Word}
  {condemned oldest floor : Generation}

/-- No frame refers to anything younger than its floor, unless it is active. -/
def FlooredBy (store : Store) (heap : Word → Generation) : Prop :=
  ∀ handle frame, store.arena.find? handle = some frame → frame.floor.isActive = false →
    ∀ word ∈ frame.referents, frame.floor ≤ heap word

private theorem flooredBy_iff (sound : store.arena.Sound) : store.FlooredBy heap ↔
    store.arena.toList.all fun (_, frame) =>
      frame.floor.isActive || frame.referents.all (frame.floor ≤ heap ·) := by
  simp [FlooredBy, ← Arena.mem_toList sound.bounded, Classical.or_iff_not_imp_left]

structure Aged (condemned oldest : Generation) (chains : List (List Handle)) (store final : Store) : Prop where
  raised : ∀ chain ∈ chains, store.TakesPart condemned chain → ∀ handle ∈ chain, Raised oldest store final handle
  others : ∀ handle, (∀ chain ∈ chains, store.TakesPart condemned chain → handle ∉ chain) →
    final.floor? handle = store.floor? handle
  kept : Undisturbed FrozenFrame.offFloor store final

theorem TakesPart.congr (same : ∀ handle ∈ chain, final.floor? handle = store.floor? handle) :
    final.TakesPart condemned chain ↔ store.TakesPart condemned chain := by
  refine exists_congr fun head => exists_congr fun floor => and_congr_right fun last => ?_
  rw [same head (List.mem_of_getLast? last)]

theorem Valid.idle_of_takesPart (valid : Valid store roster) (member : chain ∈ roster.chains)
    (takesPart : store.TakesPart condemned chain) (within : handle ∈ chain)
    (live : store.arena.find? handle = some frame) : frame.floor.isActive = false := by
  obtain ⟨head, lead, last, known, idle, _⟩ := takesPart
  have below := valid.lowest chain member head last lead known frame.floor
    (mem_floors.mpr ⟨handle, within, frame, live, rfl⟩)
  exact Generation.isActive_mono below idle

private theorem ageChains_spec {count answer : Nat} (valid : Valid store roster) (within : chains ⊆ roster.chains)
    (distinct : chains.flatten.Nodup)
    (done : (chains.filterMap List.getLast?).foldlM (StoreM.ageChain condemned oldest) count store = .ok answer final) :
    Aged condemned oldest chains store final := by
  induction chains generalizing count store with
  | nil =>
    obtain ⟨_, rfl⟩ := EStateM.pure_eq_ok.mp done
    exact ⟨by simp, fun _ _ => rfl, .refl store⟩
  | cons chain rest ih =>
    have member := within List.mem_cons_self
    obtain ⟨before, head, rfl⟩ : ∃ before head, chain = before ++ [head] :=
      ⟨_, _, (List.dropLast_append_getLast (valid.inhabited chain member)).symm⟩
    rw [List.filterMap_cons_some (show _ = some head by simp), List.foldlM_cons] at done
    obtain ⟨next, middle, ran, done⟩ := EStateM.bind_eq_ok.mp done
    rw [List.flatten_cons, List.nodup_append] at distinct
    obtain ⟨_, distinct, apart⟩ := distinct
    have later := ih (ageChain_valid valid member ran) (fun other inside => within (List.mem_cons_of_mem _ inside))
      distinct done
    rcases ageChain_cases valid member ran with ⟨exempt, rfl⟩ | ⟨takesPart, each, others, kept⟩
    · refine ⟨fun other inside takesPart => ?_, fun handle outside => ?_, later.kept⟩
      · rcases List.mem_cons.mp inside with rfl | inside
        · exact absurd takesPart exempt
        · exact later.raised other inside takesPart
      · exact later.others handle fun other inside => outside other (List.mem_cons_of_mem _ inside)
    · -- the chains that are still to come have kept their floors, and this one keeps those that it has now
      have ahead : ∀ other ∈ rest, ∀ handle ∈ other, middle.floor? handle = store.floor? handle :=
        fun other inside handle inner => others handle fun also =>
          apart handle also handle (List.mem_flatten.mpr ⟨other, inside, inner⟩) rfl
      have settled : ∀ handle ∈ before ++ [head], final.floor? handle = middle.floor? handle :=
        fun handle inner => later.others handle fun other inside _ also =>
          apart handle inner handle (List.mem_flatten.mpr ⟨other, inside, also⟩) rfl
      refine ⟨fun other inside takes handle inner => ?_, fun handle outside => ?_, kept.trans later.kept⟩
      · rcases List.mem_cons.mp inside with rfl | inside
        · rw [Raised, settled handle inner]
          exact each handle inner
        · rw [Raised, ← ahead other inside handle inner]
          exact later.raised other inside ((TakesPart.congr (ahead other inside)).mpr takes) handle inner
      · rw [← others handle (outside _ List.mem_cons_self takesPart)]
        refine later.others handle fun other inside takes => outside other (List.mem_cons_of_mem _ inside) ?_
        exact (TakesPart.congr (ahead other inside)).mp takes

private theorem age_spec {answer : Nat} (valid : Valid store roster)
    (done : StoreM.age condemned oldest store = .ok answer final) :
    Aged condemned oldest roster.registered store final := by
  unfold StoreM.age at done
  obtain ⟨heads, _, asked, done⟩ := EStateM.bind_eq_ok.mp (StoreM.insisting_eq_ok.mp done)
  obtain ⟨listed, rfl⟩ := StoreM.ask_eq_ok.mp asked
  rw [valid.heads_eq] at listed
  cases listed
  exact ageChains_spec valid (fun _ inside => List.mem_append_left _ inside)
    (Roster.distinct_parts valid.distinct).1 done

namespace Aged

private theorem chain_cases (aged : Aged condemned oldest chains store final) (valid : Valid store roster)
    (within : chains ⊆ roster.chains) (member : chain ∈ roster.chains) :
    (chain ∈ chains ∧ store.TakesPart condemned chain ∧ ∀ handle ∈ chain, Raised oldest store final handle) ∨
      ∀ handle ∈ chain, final.floor? handle = store.floor? handle := by
  by_cases takesPart : chain ∈ chains ∧ store.TakesPart condemned chain
  · exact .inl ⟨takesPart.1, takesPart.2, aged.raised chain takesPart.1 takesPart.2⟩
  · refine .inr fun handle inner => aged.others handle fun other inside takes also => takesPart ?_
    rw [eq_of_shared valid.distinct member (within inside) inner also]
    exact ⟨inside, takes⟩

private theorem frame_was (aged : Aged condemned oldest chains store final)
    (live : final.arena.find? handle = some frame) :
    ∃ old, store.arena.find? handle = some old ∧ frame.referents = old.referents := by
  have same := aged.kept.frames handle
  rw [live, Option.map_some, eq_comm, Option.map_eq_some_iff] at same
  obtain ⟨old, was, same⟩ := same
  refine ⟨old, was, ?_⟩
  simp only [FrozenFrame.offFloor, FrozenFrame.mk.injEq] at same
  rw [FrozenFrame.referents, FrozenFrame.referents, same.1, same.2.1]

private theorem head_floor_le (aged : Aged condemned oldest chains store final) (valid : Valid store roster)
    (within : chains ⊆ roster.chains) (floored : store.FlooredBy heap)
    (member : before ++ [head] ∈ roster.chains) (inner : handle ∈ before ++ [head])
    (live : final.arena.find? handle = some frame) (idle : frame.floor.isActive = false)
    (top : final.floor? head = some floor) (referred : word ∈ frame.referents) :
    floor ≤ collected heap condemned oldest word := by
  obtain ⟨old, was, same⟩ := aged.frame_was live
  rw [same] at referred
  have inside : old.floor ∈ store.floors (before ++ [head]) := mem_floors.mpr ⟨handle, inner, old, was, rfl⟩
  have lowest := valid.lowest _ member head (by simp)
  rcases aged.chain_cases valid within member with ⟨_, takesPart, raised⟩ | kept
  · obtain ⟨started, _, known, rose, now⟩ := raised head (by simp)
    obtain rfl := Option.some.inj (top.symm.trans now)
    obtain ⟨still, low⟩ : started.isActive = false ∧ started ≤ condemned := by
      obtain ⟨leader, floor, last, known', bounds⟩ := takesPart
      obtain rfl : head = leader := by simpa using last
      exact Option.some.inj (known.symm.trans known') ▸ bounds
    have below := Int.le_trans (lowest started known _ inside)
      (floored handle old was (valid.idle_of_takesPart member takesPart inner was) word referred)
    exact (Generation.aged_le_promoted_iff still below rose).mpr fun tight => Int.not_lt.mpr low tight.1
  · have still : old.floor = frame.floor := by
      have unmoved := kept handle inner
      rw [floor?_of_frame live, floor?_of_frame was] at unmoved
      exact (Option.some.inj unmoved).symm
    rw [kept head (by simp)] at top
    exact Int.le_trans (lowest floor top _ inside) (Int.le_trans
      (floored handle old was (still ▸ idle) word referred) (Generation.le_promoted _ _ _))

private theorem floored_iff (aged : Aged condemned oldest chains store final) (valid : Valid store roster)
    (within : chains ⊆ roster.chains) (nonnegative : Generation.youngest ≤ oldest) (floored : store.FlooredBy heap) :
    final.FlooredBy (collected heap condemned oldest) ↔
      ∀ handle frame, store.arena.find? handle = some frame →
        (∃ chain ∈ chains, store.TakesPart condemned chain ∧ handle ∈ chain) → ¬ frame.Tight heap condemned oldest := by
  constructor
  · rintro floored' handle frame live ⟨chain, inside, takesPart, inner⟩ ⟨above, below, word, referred, level⟩
    have idle := valid.idle_of_takesPart (within inside) takesPart inner live
    obtain ⟨_, raised, known, rose, now⟩ := aged.raised chain inside takesPart handle inner
    obtain ⟨new, live', rfl⟩ := Option.map_eq_some_iff.mp now
    obtain ⟨old, was, same⟩ := aged.frame_was live'
    obtain rfl := Option.some.inj (live.symm.trans was)
    rw [floor?_of_frame live] at known
    cases known
    have fits := floored' handle new live' ((Generation.isActive_of_aged nonnegative rose).trans idle) word
      (same ▸ referred)
    exact (Generation.aged_le_promoted_iff idle (Int.le_of_eq level.symm) rose).mp fits ⟨above, below, level⟩
  · intro loose handle frame live idle word referred
    obtain ⟨old, was, same⟩ := aged.frame_was live
    rw [same] at referred
    obtain ⟨before, above, member, _⟩ := valid.place was
    have inner : handle ∈ before ++ handle :: above := by simp
    rcases aged.chain_cases valid within member with ⟨inside, takesPart, raised⟩ | kept
    · obtain ⟨_, _, known, rose, now⟩ := raised handle inner
      rw [floor?_of_frame was] at known
      rw [floor?_of_frame live] at now
      cases known
      cases now
      have still := valid.idle_of_takesPart member takesPart inner was
      refine (Generation.aged_le_promoted_iff still (floored handle old was still word referred) rose).mpr ?_
      rintro ⟨above, below, level⟩
      exact loose handle old was ⟨_, inside, takesPart, inner⟩ ⟨above, below, word, referred, level⟩
    · have unmoved := kept handle inner
      rw [floor?_of_frame live, floor?_of_frame was] at unmoved
      have still : frame.floor = old.floor := Option.some.inj unmoved
      rw [still] at idle ⊢
      exact Int.le_trans (floored handle old was idle word referred) (Generation.le_promoted _ _ _)

end Aged
end Store

namespace Freezer
open Store

variable {freezer after : Freezer} {roster : Roster} {handle head : Handle} {frame : FrozenFrame}
  {heap : Word → Generation} {word : Word} {condemned oldest : Generation}

def Ages (freezer : Freezer) (condemned : Generation) (handle : Handle) : Prop :=
  freezer.settings.aging = true ∧ ∃ head outer, freezer.chainHead handle = .ok head ∧
    freezer.isRegistered head = .ok true ∧ freezer.frame head = .ok outer ∧ outer.floor.isActive = false ∧
    outer.floor ≤ condemned

private theorem ages_iff (valid : Valid freezer.store roster) (aging : freezer.settings.aging = true) :
    freezer.Ages condemned handle ↔
      ∃ chain ∈ roster.registered, freezer.store.TakesPart condemned chain ∧ handle ∈ chain := by
  constructor
  · rintro ⟨_, head, outer, led, registered, known, idle, low⟩
    obtain ⟨before, inside, within⟩ := chain_of_registered valid led registered
    exact ⟨_, inside, (takesPart_iff (StoreM.frame_eq_ok.mp known)).mpr ⟨idle, low⟩, within⟩
  · rintro ⟨chain, inside, takesPart, within⟩
    have member := List.mem_append_left roster.hidden inside
    obtain ⟨before, head, rfl, led⟩ := valid.chainHead_of_member member within
    obtain ⟨outer, live⟩ := Option.isSome_iff_exists.mp (valid.live_of_mem member (show head ∈ _ by simp))
    obtain ⟨idle, low⟩ := (takesPart_iff live).mp takesPart
    obtain ⟨shown, registered, known⟩ := isRegistered_run valid member
    rw [known.mpr inside] at registered
    exact ⟨aging, head, outer, led, registered, StoreM.frame_eq_ok.mpr live, idle, low⟩

private theorem aged_of_age (valid : Valid freezer.store roster) (done : freezer.age condemned oldest = .ok after) :
    Valid after.store roster ∧ ∃ chains, chains ⊆ roster.chains ∧ Aged condemned oldest chains freezer.store after.store ∧
      ∀ handle, (∃ chain ∈ chains, freezer.store.TakesPart condemned chain ∧ handle ∈ chain) ↔
        freezer.Ages condemned handle := by
  obtain ⟨ran, _⟩ := perform_ran (show freezer.perform (.age condemned oldest) = .ok after from done)
  rcases ran with ⟨aging, _, ran⟩ | ⟨still, same⟩
  · exact ⟨age_valid valid ran, roster.registered, fun _ inside => List.mem_append_left _ inside, age_spec valid ran,
      fun handle => (ages_iff valid aging).symm⟩
  · rw [same]
    exact ⟨valid, [], by simp, ⟨by simp, fun _ _ => rfl, .refl freezer.store⟩, fun handle => by simp [Ages, still]⟩

/-- Where floors lie below the referents, no collection passes over a root that refers to what it condemns. -/
theorem shown_of_floored {σ : Type} {visit : Visitor σ} {state : σ} {answer : Nat × σ}
    (valid : Valid freezer.store roster) (floored : freezer.store.FlooredBy heap)
    (live : freezer.frame handle = .ok frame) (led : freezer.chainHead handle = .ok head)
    (registered : freezer.isRegistered head = .ok true) (referred : word ∈ frame.referents)
    (nonnegative : Generation.youngest ≤ condemned) (due : heap word ≤ condemned)
    (done : freezer.collect visit condemned state = .ok (answer, after)) :
    Shown visit state answer handle frame.layout.roots := by
  have live := StoreM.frame_eq_ok.mp live
  refine shown_of_collect valid live led registered ?_ done
  by_cases idle : frame.floor.isActive = false
  · exact Int.le_trans (floored handle frame live idle word referred) due
  · have active : frame.floor < 0 := by simpa [Generation.isActive] using idle
    exact Int.le_of_lt (Int.lt_of_lt_of_le active nonnegative)

/-- Floors that lie below the referents stay below them, unless the head of a chain takes a frame along whose floor
is above the condemned generation and as old as a referent. The floors of heads stay below all referents of their
chains in any case. As long as floors lie below the referents, no collection passes over a root that it needs. -/
theorem Reachable.age_floors (reachable : Reachable freezer) (nonnegative : Generation.youngest ≤ oldest)
    (floored : freezer.store.FlooredBy heap) (done : freezer.age condemned oldest = .ok after) :
    (after.store.FlooredBy (collected heap condemned oldest) ↔
      ∀ handle frame, freezer.frame handle = .ok frame → freezer.Ages condemned handle →
        ¬ frame.Tight heap condemned oldest) ∧
    (∀ handle frame head outer, after.frame handle = .ok frame → frame.floor.isActive = false →
      after.chainHead handle = .ok head → after.frame head = .ok outer →
        ∀ word ∈ frame.referents, outer.floor ≤ collected heap condemned oldest word) ∧
    (after.store.FlooredBy (collected heap condemned oldest) →
      ∀ handle frame head word, after.frame handle = .ok frame → after.chainHead handle = .ok head →
        after.isRegistered head = .ok true → word ∈ frame.referents →
          ∀ {σ : Type} (visit : Visitor σ) (later : Generation) (state : σ) (answer : Nat × σ) (last : Freezer),
            Generation.youngest ≤ later → collected heap condemned oldest word ≤ later →
              after.collect visit later state = .ok (answer, last) →
                Shown visit state answer handle frame.layout.roots) := by
  obtain ⟨roster, _, valid⟩ := reachable.history
  obtain ⟨valid', chains, within, aged, ages⟩ := aged_of_age valid done
  refine ⟨?_, fun handle frame head outer live idle led top word referred => ?_, ?_⟩
  · rw [aged.floored_iff valid within nonnegative floored]
    exact forall_congr' fun handle => forall_congr' fun frame => by
      rw [ages handle, show freezer.frame handle = .ok frame ↔ _ from StoreM.frame_eq_ok]
  · obtain ⟨before, member, inner⟩ := valid'.chain_of_chainHead led
    have live := StoreM.frame_eq_ok.mp live
    have top := floor?_of_frame (StoreM.frame_eq_ok.mp top)
    exact aged.head_floor_le valid within floored member inner live idle top referred
  · intro floored' handle frame head word live led registered referred σ visit later state answer last
      nonnegative due done
    exact shown_of_floored valid' floored' live led registered referred nonnegative due done

def partedHeap (word : Word) : Generation := if word = 0x6000 then 0 else 2

/-- A chain of two frames that refer to an object each. Two collections raise both floors, and then the object
of the outer frame turns out to be young. -/
def partedProgram : List Operation :=
  let memory := (Memory.blank.writeWord 0x1000 0x5000).writeWord 0x1010 0x6000
  [.capture memory (fun i => 0x8000 + 0x100 * UInt64.ofNat i) [sampleFrame 0x1000, sampleFrame 0x1010] 0x2000,
    .register ⟨1, 0⟩, .age 0 3, .age 1 3, .rejuvenate partedHeap 2 3]

def parted : Freezer := outcome {} partedProgram

private theorem reachable_parted : Reachable parted :=
  reachable_of_replay (replay_outcome (by decide +kernel))

private theorem parted_floored : parted.store.FlooredBy partedHeap := by
  obtain ⟨roster, _, valid⟩ := reachable_parted.history
  rw [flooredBy_iff valid.sound]
  decide +kernel

/-- While no floor goes above the generation of the older object, floors stay below. -/
theorem Reachable.age_floors_parted : ∃ after, parted.age 0 2 = .ok after ∧
    after.store.FlooredBy (collected partedHeap 0 2) := by
  obtain ⟨after, done⟩ := CallStacks.Failure.exists_of_isOk (show (parted.age 0 2).isOk = true by decide +kernel)
  obtain ⟨floored, _⟩ := reachable_parted.age_floors (show Generation.youngest ≤ 2 by decide) parted_floored done
  refine ⟨after, done, floored.mpr ?_⟩
  rintro handle frame _ _ ⟨above, below, word, _, level⟩
  unfold partedHeap Generation at *
  split at level <;> omega

/-- A collection of the nursery raises the floor of the inner frame past its object. The next collection of that
object's generation passes over the root. -/
theorem Reachable.age_overtakes : Reachable parted ∧ parted.store.FlooredBy partedHeap ∧
    ∃ after frame, parted.age 0 3 = .ok after ∧ after.frame ⟨0, 0⟩ = .ok frame ∧
      after.chainHead ⟨0, 0⟩ = .ok ⟨1, 0⟩ ∧ after.isRegistered ⟨1, 0⟩ = .ok true ∧
      0x5000 ∈ frame.referents ∧ collected partedHeap 0 3 0x5000 = 2 ∧ frame.floor = 3 ∧
      ∃ reports last, after.collect noting 2 [] = .ok ((1, reports), last) ∧
        ∀ slot ∈ reports, slot.owner ≠ ⟨0, 0⟩ := by
  have raised : (do
      let after ← parted.age 0 3
      let frame ← after.frame ⟨0, 0⟩
      return (frame.floor, frame.referents)) = .ok (3, [0x5000]) := by decide +kernel
  have linked : (do
      let after ← parted.age 0 3
      return (after.chainHead ⟨0, 0⟩, after.isRegistered ⟨1, 0⟩)) = .ok (.ok ⟨1, 0⟩, .ok true) := by decide +kernel
  have passed : (do
      let after ← parted.age 0 3
      let (answer, _) ← after.collect noting 2 []
      return (answer.1, answer.2.map RootSlot.owner)) = .ok (1, [⟨1, 0⟩]) := by decide +kernel
  obtain ⟨after, done, raised⟩ := CallStacks.Failure.bind_eq_ok.mp raised
  obtain ⟨frame, live, raised⟩ := CallStacks.Failure.bind_eq_ok.mp raised
  rw [done] at linked
  obtain ⟨again, same, passed⟩ := CallStacks.Failure.bind_eq_ok.mp passed
  obtain rfl : after = again := Except.ok.inj (done.symm.trans same)
  obtain ⟨⟨⟨count, reports⟩, last⟩, ran, passed⟩ := CallStacks.Failure.bind_eq_ok.mp passed
  obtain ⟨floor, referents⟩ := Prod.mk.inj (Except.ok.inj raised)
  obtain ⟨led, registered⟩ := Prod.mk.inj (Except.ok.inj linked)
  obtain ⟨rfl, owners⟩ := Prod.mk.inj (Except.ok.inj passed)
  refine ⟨reachable_parted, parted_floored, after, frame, done, live, led, registered, by simp [referents],
    by decide, floor, reports, last, ran, fun slot within => ?_⟩
  have owner : slot.owner ∈ reports.map RootSlot.owner := List.mem_map_of_mem within
  rw [owners, List.mem_singleton] at owner
  rw [owner]
  decide

end Freezer
end CallStacks.Frozen
