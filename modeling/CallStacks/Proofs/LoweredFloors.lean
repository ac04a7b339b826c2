import CallStacks.Proofs.SettledFloors

/-! How many floors a rejuvenation lowers. Its report counts the frames that refer to something younger than their
floor. A head comes down also where only a frame that it has called does so, and then it is not counted. -/

namespace CallStacks.Frozen

namespace Store
open Rejuvenation

variable {store final : Store} {roster : Roster} {handle : Handle} {handles heads : List Handle} {frame : FrozenFrame}
  {heap : Word → Generation} {condemned oldest : Generation} {answer : Rejuvenation}

/-- The frames whose floor is lower afterwards. -/
def lowered (store final : Store) : List (Handle × FrozenFrame) :=
  store.arena.toList.filter fun entry => (final.floor? entry.1).any (· < entry.2.floor)

private theorem mem_lowered (sound : store.arena.Sound) : (handle, frame) ∈ store.lowered final ↔
    store.arena.find? handle = some frame ∧ ∃ floor, final.floor? handle = some floor ∧ floor < frame.floor := by
  simp only [lowered, List.mem_filter, Arena.mem_toList sound.bounded]
  cases final.floor? handle <;> simp

private theorem mem_listing : (handle, frame) ∈ store.listing handles ↔
    handle ∈ handles ∧ store.arena.find? handle = some frame := by
  simp only [listing, List.mem_filterMap, Option.map_eq_some_iff, Prod.mk.injEq]
  constructor
  · rintro ⟨other, within, held, live, rfl, rfl⟩
    exact ⟨within, live⟩
  · rintro ⟨within, live⟩
    exact ⟨handle, within, frame, live, rfl, rfl⟩

private theorem mem_ripeListing : (handle, frame) ∈ store.ripeListing condemned heads ↔
    ∃ head ∈ heads, store.ripe condemned head = true ∧ handle ∈ store.chainOf head ∧
      store.arena.find? handle = some frame := by
  simp only [ripeListing, List.mem_flatMap, List.mem_filter, mem_listing, and_assoc]

theorem Represents.nodup_ripeListing (valid : Represents store roster) (condemned : Generation) :
    (store.ripeListing condemned roster.heads).Nodup := by
  refine List.nodup_flatMap.mpr ⟨fun head ripe => ?_, ?_⟩
  · obtain ⟨before, member, listed⟩ := valid.exists_chainOf (List.mem_filter.mp ripe).1
    have present : ∀ handle ∈ head :: before.reverse, (store.arena.find? handle).isSome := fun handle inside =>
      valid.live_of_mem member (by simpa [or_comm] using inside)
    apply List.Nodup.of_map (·.1)
    rw [listed, map_listing present]
    simpa using List.nodup_reverse.mpr (valid.chain_distinct member)
  · refine (valid.nodup_heads.filter _).imp_of_mem fun {head other} ripe ripe' different => ?_
    rintro ⟨handle, frame⟩ inside inside'
    exact different (valid.head_unique (List.mem_filter.mp ripe).1 (List.mem_filter.mp ripe').1
      (mem_listing.mp inside).1 (mem_listing.mp inside').1)

theorem Rejuvenated.lower_of_sinks (rejuvenated : Rejuvenated heap condemned oldest heads store final)
    (within : (handle, frame) ∈ store.ripeListing condemned heads) (sinks : frame.sinks heap oldest = true) :
    ∃ floor, final.floor? handle = some floor ∧ floor < frame.floor := by
  obtain ⟨head, shown, ripe, inside, live⟩ := mem_ripeListing.mp within
  obtain ⟨callees, listed, brings⟩ := rejuvenated.chains head shown ripe
  have lower : frame.lowest heap oldest < frame.floor := of_decide_eq_true sinks
  rw [listed] at inside
  rcases List.mem_cons.mp inside with rfl | inner
  · obtain ⟨outer, floor, lead, least, top⟩ := brings.top
    have bound := (List.min?_eq_some_iff.mp least).2 _ (mem_lowests List.mem_cons_self live)
    exact ⟨floor, floor?_of_frame top, Int.lt_of_le_of_lt bound lower⟩
  · exact ⟨_, floor?_of_frame (brings.below handle inner frame live), lower⟩

/-- A frame that has come down belongs to a ripe chain. Unless it refers to something younger itself it is the head of
its chain, and is now where one of its callees is allowed to be. -/
theorem Rejuvenated.cases_of_lowered (rejuvenated : Rejuvenated heap condemned oldest heads store final)
    (sound : store.arena.Sound) (within : (handle, frame) ∈ store.lowered final) :
    (handle, frame) ∈ store.ripeListing condemned heads ∧
      (frame.sinks heap oldest = false → handle ∈ heads ∧ ∃ callees, store.chainOf handle = handle :: callees ∧
        ∃ callee ∈ callees, ∃ inner, store.arena.find? callee = some inner ∧
          final.floor? handle = some (inner.lowest heap oldest)) := by
  obtain ⟨live, floor, known, lower⟩ := (mem_lowered sound).mp within
  have changed : ∃ head ∈ heads, store.ripe condemned head = true ∧ handle ∈ store.chainOf head := by
    by_contra outside
    have same := rejuvenated.others handle fun head shown ripe inside => outside ⟨head, shown, ripe, inside⟩
    rw [floor?, same, ← floor?, floor?_of_frame live] at known
    exact Int.ne_of_gt lower (Option.some.inj known)
  obtain ⟨head, shown, ripe, inside⟩ := changed
  refine ⟨mem_ripeListing.mpr ⟨head, shown, ripe, inside, live⟩, fun still => ?_⟩
  have still : frame.floor ≤ frame.lowest heap oldest := Int.not_lt.mp (of_decide_eq_false still)
  obtain ⟨callees, listed, brings⟩ := rejuvenated.chains head shown ripe
  rw [listed] at inside
  rcases List.mem_cons.mp inside with rfl | inner
  · obtain ⟨outer, least, lead, lowest, top⟩ := brings.top
    obtain rfl := Option.some.inj (live.symm.trans lead)
    obtain rfl : least = floor := Option.some.inj ((floor?_of_frame top).symm.trans known)
    obtain ⟨⟨callee, inner⟩, among, same⟩ := List.mem_map.mp (List.min?_eq_some_iff.mp lowest).1
    obtain ⟨among, held⟩ := mem_listing.mp among
    refine ⟨shown, callees, listed, callee, ?_, inner, held, by rw [known, ← same]⟩
    -- the head itself is not what has come down so far
    refine (List.mem_cons.mp among).resolve_left fun own => ?_
    obtain rfl := Option.some.inj (live.symm.trans (own ▸ held))
    exact Int.not_lt.mpr still (same ▸ lower)
  · rw [floor?_of_frame (brings.below handle inner frame live)] at known
    exact absurd lower (Int.not_lt.mpr (Option.some.inj known ▸ still))

/-- What is counted are the frames that have come down and refer to something younger than their floor. -/
theorem Rejuvenated.countP_sinks (rejuvenated : Rejuvenated heap condemned oldest roster.heads store final)
    (valid : Valid store roster) :
    (store.ripeListing condemned roster.heads).countP (·.2.sinks heap oldest) =
      (store.lowered final).countP (·.2.sinks heap oldest) := by
  have once : (store.lowered final).Nodup :=
    (List.Nodup.of_map (·.1) (Arena.nodup_toList valid.sound.bounded)).filter _
  rw [List.countP_eq_length_filter, List.countP_eq_length_filter]
  refine List.Perm.length_eq ((List.perm_ext_iff_of_nodup ((valid.nodup_ripeListing condemned).filter _)
    (once.filter _)).mpr fun ⟨handle, frame⟩ => ?_)
  rw [List.mem_filter, List.mem_filter]
  refine and_congr_left fun sinks => ⟨fun within => ?_, fun within => ?_⟩
  case refine_2 => exact (rejuvenated.cases_of_lowered valid.sound within).1
  obtain ⟨_, _, _, _, live⟩ := mem_ripeListing.mp within
  exact (mem_lowered valid.sound).mpr ⟨live, rejuvenated.lower_of_sinks within sinks⟩

end Store

namespace Freezer
open Store

variable {freezer : Freezer} {final : Store} {heap : Word → Generation} {condemned oldest : Generation}
  {answer : Rejuvenation}

/-- The count of a rejuvenation is that of the frames that have come down and refer to something younger than the floor
they had. Any other frame that has come down is the head of a registered chain, where it follows one of its callees. So
all that have come down are counted exactly if no head has followed. -/
theorem Reachable.rejuvenate_counts (reachable : Reachable freezer) (nonnegative : Generation.youngest ≤ oldest)
    (done : StoreM.rejuvenate heap condemned oldest freezer.store = .ok answer final) :
    answer.lowered = (freezer.store.lowered final).countP (·.2.sinks heap oldest) ∧
      (∀ handle frame, (handle, frame) ∈ freezer.store.lowered final → frame.sinks heap oldest = false →
        freezer.isRegistered handle = .ok true ∧
          ∃ callees, freezer.chainMembers handle = .ok (handle :: callees) ∧
            ∃ callee ∈ callees, ∃ inner, freezer.frame callee = .ok inner ∧
              final.floor? handle = some (inner.lowest heap oldest)) ∧
      (answer.lowered = (freezer.store.lowered final).length ↔
        ∀ entry ∈ freezer.store.lowered final, entry.2.sinks heap oldest = true) := by
  obtain ⟨roster, _, valid⟩ := reachable.history
  obtain ⟨rejuvenated, adds⟩ := rejuvenate_adds valid nonnegative done
  have counted : answer.lowered = (freezer.store.lowered final).countP (·.2.sinks heap oldest) := by
    rw [adds.lowered, Nat.zero_add, rejuvenated.countP_sinks valid]
  refine ⟨counted, fun handle frame within still => ?_, by rw [counted, List.countP_eq_length]⟩
  obtain ⟨shown, callees, listed, callee, inside, inner, held, known⟩ :=
    (rejuvenated.cases_of_lowered valid.sound within).2 still
  obtain ⟨before, member⟩ := Represents.mem_heads_iff.mp shown
  have listed' := valid.chainOf_eq (List.mem_append_left roster.hidden member)
  obtain ⟨registered, asked, truly⟩ := isRegistered_run valid (List.mem_append_left roster.hidden member)
  obtain rfl := truly.mpr member
  refine ⟨asked, callees, ?_, callee, inside, inner, StoreM.frame_eq_ok.mpr held, known⟩
  rw [← listed, listed']
  exact chainMembers_eq (valid.linked _ (List.mem_append_left roster.hidden member))
    (valid.chain_distinct (List.mem_append_left roster.hidden member))

/-- Of the objects that two frames refer to, that of the inner frame is young. -/
def innerHeap (word : Word) : Generation := if word = 0x5000 then 0 else 2

private theorem rejuvenated_ripened : ∃ answer final, StoreM.rejuvenate innerHeap 2 3 ripened.store = .ok answer final ∧
    answer.lowered = 1 ∧ (ripened.store.lowered final).map (fun entry => (entry.1, entry.2.sinks innerHeap 3)) =
      [(⟨0, 0⟩, true), (⟨1, 0⟩, false)] := by
  have told : (match StoreM.rejuvenate innerHeap 2 3 ripened.store with
      | .ok answer final =>
        (answer.lowered, (ripened.store.lowered final).map fun entry => (entry.1, entry.2.sinks innerHeap 3))
      | .error _ _ => (0, [])) = (1, [(⟨0, 0⟩, true), (⟨1, 0⟩, false)]) := by decide +kernel
  cases done : StoreM.rejuvenate innerHeap 2 3 ripened.store with
  | error => simp [done] at told
  | ok answer final =>
    rw [done] at told
    obtain ⟨lowered, entries⟩ := Prod.mk.inj told
    exact ⟨answer, final, rfl, lowered, entries⟩

/-- The head follows the frame that it has called. -/
theorem Reachable.rejuvenate_counts_inner : ∃ answer final frame,
    StoreM.rejuvenate innerHeap 2 3 ripened.store = .ok answer final ∧ answer.lowered = 1 ∧
      (⟨1, 0⟩, frame) ∈ ripened.store.lowered final ∧ frame.sinks innerHeap 3 = false ∧
      ∃ callees, ripened.chainMembers ⟨1, 0⟩ = .ok (⟨1, 0⟩ :: callees) ∧ ∃ callee ∈ callees, ∃ inner,
        ripened.frame callee = .ok inner ∧ final.floor? ⟨1, 0⟩ = some (inner.lowest innerHeap 3) := by
  obtain ⟨answer, final, done, lowered, entries⟩ := rejuvenated_ripened
  have outer : ((⟨1, 0⟩ : Handle), false) ∈
      (ripened.store.lowered final).map fun entry => (entry.1, entry.2.sinks innerHeap 3) := by simp [entries]
  obtain ⟨⟨handle, frame⟩, within, same⟩ := List.mem_map.mp outer
  obtain ⟨rfl, still⟩ := Prod.mk.inj same
  obtain ⟨_, follows, _⟩ := reachable_ripened.rejuvenate_counts (by decide) done
  exact ⟨answer, final, frame, done, lowered, within, still, (follows _ frame within still).2⟩

/-- Two floors come down and one is counted. -/
theorem Reachable.rejuvenate_uncounted : Reachable ripened ∧ ∃ answer final,
    StoreM.rejuvenate innerHeap 2 3 ripened.store = .ok answer final ∧ answer.lowered = 1 ∧
      (ripened.store.lowered final).length = 2 := by
  obtain ⟨answer, final, done, lowered, entries⟩ := rejuvenated_ripened
  refine ⟨reachable_ripened, answer, final, done, lowered, ?_⟩
  have length := congrArg List.length entries
  rwa [List.length_map] at length

end Freezer
end CallStacks.Frozen
