import CallStacks.Proofs.Rejuvenating

/-! Rejuvenation over all registered chains. A second one with the same heap changes nothing: a chain that is still ripe
has not come down to the youngest generation, so all its frames have been read to their end and lie where their
referents leave them. -/

namespace CallStacks.Frozen

namespace Rejuvenation
open Store

variable {store final : Store} {roster : Roster} {handle head : Handle} {handles before : List Handle}
  {frame : FrozenFrame} {heap : Word → Generation} {condemned oldest bound : Generation}
  {seen : Generation × Rejuvenation} {done : Rejuvenation}

private theorem frame_again (live : store.arena.find? handle = some frame) (idle : Generation.youngest ≤ frame.floor)
    (settled : frame.Settled heap oldest) :
    ∃ answer, Rejuvenation.frame heap oldest seen handle store = .ok answer store ∧ answer.1 = min seen.1 frame.floor := by
  obtain ⟨asked, scanned⟩ := settled
  refine ⟨(min seen.1 frame.floor, ⟨seen.2.lowered, seen.2.asked ++ asked⟩), ?_, rfl⟩
  unfold Rejuvenation.frame
  dsimp only
  rw [EStateM.bind_of_ok (StoreM.askFrame_of_live live), if_neg (by simp [Generation.isActive_of_idle idle]),
    EStateM.bind_of_ok (StoreM.ask_of_ok scanned)]
  dsimp only
  rw [if_neg (Int.lt_irrefl _)]
  rfl

private theorem frames_again (above : bound ≤ seen.1) (settled : ∀ handle ∈ handles, ∃ frame,
      store.arena.find? handle = some frame ∧ Generation.youngest ≤ frame.floor ∧ bound ≤ frame.floor ∧
        frame.Settled heap oldest) :
    ∃ answer, handles.foldlM (Rejuvenation.frame heap oldest) seen store = .ok answer store ∧ bound ≤ answer.1 := by
  refine StoreM.foldlM_still (fun seen : Generation × Rejuvenation => bound ≤ seen.1) above fun handle within seen above => ?_
  obtain ⟨frame, live, idle, high, settled⟩ := settled handle within
  obtain ⟨answer, ran, lowest⟩ := frame_again live idle settled
  exact ⟨answer, ran, lowest ▸ Int.le_min.mpr ⟨above, high⟩⟩

/-- A chain whose frames are settled is left alone, its head too, which is already the lowest. -/
theorem chain_again (valid : Valid store roster) (member : before ++ [head] ∈ roster.chains)
    (settled : store.ripe condemned head = true → ∀ handle ∈ before ++ [head], ∀ frame,
      store.arena.find? handle = some frame → frame.Settled heap oldest) :
    ∃ answer, Rejuvenation.chain heap oldest condemned done head store = .ok answer store := by
  obtain ⟨top, lead⟩ := Option.isSome_iff_exists.mp (valid.live_of_mem member (show head ∈ _ by simp))
  unfold Rejuvenation.chain
  rw [EStateM.bind_of_ok (StoreM.askFrame_of_live lead)]
  dsimp only
  split
  next => exact ⟨done, rfl⟩
  next takesPart =>
    simp only [Bool.or_eq_true, decide_eq_true_eq, not_or, Int.not_le, gt_iff_lt, Int.not_lt] at takesPart
    have ripe := (ripe_iff lead).mpr takesPart
    have members := chainMembers_eq (valid.linked _ member) (valid.chain_distinct member)
    have each : ∀ handle ∈ head :: before.reverse, ∃ frame, store.arena.find? handle = some frame ∧
        Generation.youngest ≤ frame.floor ∧ top.floor ≤ frame.floor ∧ frame.Settled heap oldest := by
      intro handle inside
      have within : handle ∈ before ++ [head] := by simpa [or_comm] using inside
      obtain ⟨frame, live⟩ := Option.isSome_iff_exists.mp (valid.live_of_mem member within)
      have least := valid.lowest _ member head (by simp) top.floor (floor?_of_frame lead) frame.floor
        (mem_floors.mpr ⟨handle, within, frame, live, rfl⟩)
      exact ⟨frame, live, valid.idle_of_ripe member ripe within live, least, settled ripe handle within frame live⟩
    have start : top.floor ≤ (top.floor, done).1 := Int.le_refl _
    obtain ⟨⟨lowest, seen⟩, ran, high⟩ := frames_again start each
    rw [EStateM.bind_of_ok (StoreM.ask_of_ok members), EStateM.bind_of_ok ran]
    dsimp only
    rw [EStateM.bind_of_ok (StoreM.changeFrame_of_live lead _), Int.min_eq_left high, setFrame, Arena.set_self lead]
    exact ⟨seen, rfl⟩

end Rejuvenation

namespace Store
open Rejuvenation

variable {store final : Store} {roster : Roster} {head : Handle} {heap : Word → Generation}
  {condemned oldest : Generation} {answer : Rejuvenation}

theorem rejuvenate_adds (valid : Valid store roster) (nonnegative : Generation.youngest ≤ oldest)
    (done : StoreM.rejuvenate heap condemned oldest store = .ok answer final) :
    Rejuvenated heap condemned oldest roster.heads store final ∧
      Adds heap oldest (store.ripeListing condemned roster.heads) {} answer := by
  unfold StoreM.rejuvenate at done
  obtain ⟨heads, _, asked, done⟩ := EStateM.bind_eq_ok.mp (StoreM.insisting_eq_ok.mp done)
  obtain ⟨listed, rfl⟩ := StoreM.ask_eq_ok.mp asked
  rw [valid.heads_eq] at listed
  cases listed
  exact rejuvenated_of_chains valid nonnegative (fun _ inside => List.mem_append_left _ inside)
    (Roster.distinct_parts valid.distinct).1 done

private theorem rejuvenate_spec (valid : Valid store roster) (nonnegative : Generation.youngest ≤ oldest)
    (done : StoreM.rejuvenate heap condemned oldest store = .ok answer final) :
    Rejuvenated heap condemned oldest roster.heads store final ∧
      answer.asked.Sublist (store.ripeReferents condemned roster.heads) := by
  obtain ⟨rejuvenated, ⟨told, fits, asked⟩, _⟩ := rejuvenate_adds valid nonnegative done
  rw [List.nil_append] at asked
  rw [ripeReferents_eq]
  exact ⟨rejuvenated, asked ▸ fits⟩

theorem Rejuvenated.ripe_of_ripe (rejuvenated : Rejuvenated heap condemned oldest roster.heads store final)
    (valid : Valid store roster) (shown : head ∈ roster.heads) (ripe : final.ripe condemned head = true) :
    store.ripe condemned head = true := by
  by_contra exempt
  obtain ⟨before, _, listed⟩ := valid.exists_chainOf shown
  have own : head ∈ store.chainOf head := listed ▸ List.mem_cons_self
  refine exempt ((ripe_congr (rejuvenated.others head fun other shown' ripe' also => ?_)).symm.trans ripe)
  exact exempt (valid.head_unique shown shown' own also ▸ ripe')

theorem Rejuvenated.again (rejuvenated : Rejuvenated heap condemned oldest roster.heads store final)
    (valid : Valid store roster) (valid' : Valid final roster) :
    ∃ again, StoreM.rejuvenate heap condemned oldest final = .ok again final := by
  have still : ∃ again, (roster.heads.foldlM (chain heap oldest condemned) {}) final = .ok again final ∧ True := by
    refine StoreM.foldlM_still (fun _ => True) trivial fun head shown done _ => ?_
    obtain ⟨before, member⟩ := Represents.mem_heads_iff.mp shown
    have member := List.mem_append_left roster.hidden member
    have settled : final.ripe condemned head = true → ∀ handle ∈ before ++ [head], ∀ frame,
        final.arena.find? handle = some frame → frame.Settled heap oldest := by
      intro ripe handle within frame live
      obtain ⟨callees, listed, brings⟩ := rejuvenated.chains head shown (rejuvenated.ripe_of_ripe valid shown ripe)
      rw [valid.chainOf_eq member, List.cons.injEq] at listed
      obtain ⟨_, rfl⟩ := listed
      obtain ⟨top, lead⟩ := Option.isSome_iff_exists.mp (valid'.live_of_mem member (show head ∈ _ by simp))
      exact brings.settled top.floor (floor?_of_frame lead) ((ripe_iff lead).mp ripe).1 handle
        (by simpa [or_comm] using within) frame live
    obtain ⟨answer, ran⟩ := chain_again valid' member settled
    exact ⟨answer, ran, trivial⟩
  obtain ⟨again, ran, _⟩ := still
  refine ⟨again, StoreM.insisting_eq_ok.mpr ?_⟩
  rw [EStateM.bind_of_ok (StoreM.ask_of_ok valid'.heads_eq), ran]

end Store

namespace Freezer
open Store

variable {freezer : Freezer} {final : Store} {heap : Word → Generation} {condemned oldest : Generation}
  {answer : Rejuvenation}

/-- Rejuvenation lowers the floors of ripe chains to where their referents are, and those of their heads to the lowest
of the chain. It asks the heap about what these frames refer to, about each of their entries at most once and in order.
All else stays as it is, and rejuvenating again changes nothing. -/
theorem Reachable.rejuvenate_exact (reachable : Reachable freezer) (nonnegative : Generation.youngest ≤ oldest)
    (done : StoreM.rejuvenate heap condemned oldest freezer.store = .ok answer final) :
    ∃ heads, freezer.store.heads = .ok heads ∧
      (∀ head ∈ heads, ∀ outer, freezer.frame head = .ok outer →
        Generation.youngest < outer.floor → outer.floor ≤ condemned →
          ∃ callees floor, freezer.chainMembers head = .ok (head :: callees) ∧
            (∀ handle ∈ callees, ∀ frame, freezer.frame handle = .ok frame →
              final.frame handle = .ok (frame.withFloor (frame.lowest heap oldest))) ∧
            (freezer.store.lowests heap oldest (head :: callees)).min? = some floor ∧
            final.frame head = .ok (outer.withFloor floor) ∧
            ∀ word ∈ freezer.store.referents (head :: callees), floor ≤ (heap word).clamped oldest) ∧
      (∀ handle, (∀ head ∈ heads, freezer.store.ripe condemned head = true →
        ∀ members, freezer.chainMembers head = .ok members → handle ∉ members) →
          final.frame handle = freezer.frame handle) ∧
      Undisturbed FrozenFrame.offFloor freezer.store final ∧
      answer.asked.Sublist (freezer.store.ripeReferents condemned heads) ∧
      ∃ again, StoreM.rejuvenate heap condemned oldest final = .ok again final := by
  obtain ⟨roster, _, valid⟩ := reachable.history
  obtain ⟨rejuvenated, asked⟩ := rejuvenate_spec valid nonnegative done
  have valid' := Rejuvenation.rejuvenate_valid valid done
  refine ⟨roster.heads, valid.heads_eq, fun head shown outer lead above below => ?_, fun handle outside => ?_,
    Rejuvenation.rejuvenate_undisturbed heap condemned oldest _ _ _ done, asked, rejuvenated.again valid valid'⟩
  · have lead := StoreM.frame_eq_ok.mp lead
    obtain ⟨before, member⟩ := Represents.mem_heads_iff.mp shown
    have member := List.mem_append_left roster.hidden member
    obtain ⟨callees, listed, brings⟩ := rejuvenated.chains head shown ((ripe_iff lead).mpr ⟨above, below⟩)
    obtain ⟨frame, floor, lead', least, top⟩ := brings.top
    obtain rfl := Option.some.inj (lead.symm.trans lead')
    rw [valid.chainOf_eq member] at listed
    refine ⟨callees, floor, ?_, fun handle inside frame live => ?_, least, StoreM.frame_eq_ok.mpr top,
      fun word referred => ?_⟩
    · rw [← listed]
      exact chainMembers_eq (valid.linked _ member) (valid.chain_distinct member)
    · exact StoreM.frame_eq_ok.mpr (brings.below handle inside frame (StoreM.frame_eq_ok.mp live))
    · obtain ⟨⟨handle, frame⟩, inside, referred⟩ := List.mem_flatMap.mp referred
      exact Int.le_trans ((List.min?_eq_some_iff.mp least).2 _ (List.mem_map_of_mem inside))
        (FrozenFrame.lowest_le_clamped referred)
  · have same := rejuvenated.others handle fun head shown ripe also => ?_
    · rw [Freezer.frame, Store.frame, Store.frame, Arena.get, Arena.get, same]
    obtain ⟨before, member⟩ := Represents.mem_heads_iff.mp shown
    have member := List.mem_append_left roster.hidden member
    rw [valid.chainOf_eq member] at also
    exact outside head shown ripe _ (chainMembers_eq (valid.linked _ member) (valid.chain_distinct member)) also

/-- What precedes the rejuvenation in which the object of the outer frame turns out to be young. -/
def ripened : Freezer := outcome {} (partedProgram.take 4)

theorem reachable_ripened : Reachable ripened := reachable_of_replay (replay_outcome (by decide +kernel))

/-- The inner frame stays where its object is, and the head comes down to the youngest generation. -/
theorem Reachable.rejuvenate_exact_ripened : ∃ answer final,
    StoreM.rejuvenate partedHeap 2 3 ripened.store = .ok answer final ∧ answer.asked = [0x6000, 0x5000] ∧
      final.floor? ⟨0, 0⟩ = some 2 ∧ final.floor? ⟨1, 0⟩ = some 0 ∧
      ∃ again, StoreM.rejuvenate partedHeap 2 3 final = .ok again final := by
  have told : (match StoreM.rejuvenate partedHeap 2 3 ripened.store with
      | .ok answer final => (answer.asked, final.floor? ⟨0, 0⟩, final.floor? ⟨1, 0⟩)
      | .error _ _ => ([], none, none)) = ([0x6000, 0x5000], some 2, some 0) := by decide +kernel
  cases done : StoreM.rejuvenate partedHeap 2 3 ripened.store with
  | error => simp [done] at told
  | ok answer final =>
    rw [done] at told
    simp only [Prod.mk.injEq] at told
    obtain ⟨asked, inner, outer⟩ := told
    obtain ⟨_, _, _, _, _, _, again⟩ := reachable_ripened.rejuvenate_exact (by decide) done
    exact ⟨answer, final, rfl, asked, inner, outer, again⟩

end Freezer
end CallStacks.Frozen
