import CallStacks.Proofs.Collections
import CallStacks.Proofs.FloorBounds

/-! What the floors of a program's chains can be trusted for. A frame that is active stays active, whatever
the program does, for as long as the frame is frozen, and a registered active frame is shown to every
collection. -/

namespace CallStacks.Frozen

/-- Aging and rejuvenation speak of no generation above a limit. -/
def Operation.Within (limit : Generation) : Operation → Prop
  | .age _ oldest | .rejuvenate _ _ oldest => Generation.youngest ≤ oldest ∧ oldest ≤ limit
  | _ => True

namespace Freezer
open Store

variable {freezer after : Freezer} {roster : Roster} {operation : Operation} {limit : Generation}
  {handle head : Handle} {frame : FrozenFrame}

def Shown {σ : Type} (visit : Visitor σ) (state : σ) (answer : Nat × σ) (owner : Handle) (roots : List Root) : Prop :=
  ∃ reports : List RootSlot, answer = (reports.length, visit.told state reports) ∧
    ∀ root ∈ roots, ∃ value, ⟨owner, root, value⟩ ∈ reports

theorem chain_of_registered (valid : Valid freezer.store roster) (led : freezer.chainHead handle = .ok head)
    (registered : freezer.isRegistered head = .ok true) :
    ∃ before, before ++ [head] ∈ roster.registered ∧ handle ∈ before ++ [head] := by
  obtain ⟨before, member, within⟩ := valid.chain_of_chainHead led
  obtain ⟨shown, known, inside⟩ := isRegistered_run valid member
  exact ⟨before, inside.mp (Except.ok.inj (known.symm.trans registered)), within⟩

/-- A collection shows every root of a registered frame whose floor is not above the condemned generation. -/
theorem shown_of_collect {σ : Type} {visit : Visitor σ} {condemned : Generation} {state : σ} {answer : Nat × σ}
    (valid : Valid freezer.store roster) (live : freezer.store.arena.find? handle = some frame)
    (led : freezer.chainHead handle = .ok head) (registered : freezer.isRegistered head = .ok true)
    (low : frame.floor ≤ condemned) (done : freezer.collect visit condemned state = .ok (answer, after)) :
    Shown visit state answer handle frame.layout.roots := by
  obtain ⟨reports, slots, told, _⟩ := (collect_spec valid done).1.reports
  refine ⟨reports, by simpa using told, fun root within => ?_⟩
  have due : (handle, root) ∈ freezer.store.due condemned roster.scanned := by
    obtain ⟨inner, inside, own⟩ := chain_of_registered valid led registered
    refine List.mem_flatMap.mpr ⟨handle, Roster.mem_scanned.mpr (List.mem_flatten.mpr ⟨_, inside, own⟩), ?_⟩
    rw [dueOf_of_low live low]
    exact List.mem_map_of_mem within
  rw [Roster.scanned, ← slots] at due
  obtain ⟨slot, member, same⟩ := List.mem_map.mp due
  cases same
  exact ⟨slot.value, member⟩

theorem perform_graded (nonnegative : Generation.youngest ≤ limit) (graded : Graded limit freezer.store roster)
    (permitted : freezer.settings.aging = true → operation.Within limit)
    (done : freezer.perform operation = .ok after) : ∃ next, Graded limit after.store next := by
  obtain ⟨ran, _⟩ := perform_ran done
  cases operation with
  | capture memory place frames limit =>
    obtain ⟨visited, capture, chain, walked, stored⟩ := ran
    obtain ⟨_, graded'⟩ := graded.install nonnegative (Capture.fresh_of_walk walked) stored
    exact ⟨_, graded'⟩
  | register head =>
    exact ⟨_, graded.arranged (StoreM.register_agrees head _ _ _ ran) (roster.chains_reveal head)
      (register_spec graded.toValid ran).2⟩
  | unregister head =>
    exact ⟨_, graded.arranged (StoreM.unregister_agrees head _ _ _ ran) (roster.chains_conceal head)
      (unregister_spec graded.toValid ran).2⟩
  | delete handle =>
    obtain ⟨_, ran⟩ := ran
    exact ⟨_, graded.detach ran⟩
  | deleteChain head =>
    obtain ⟨members, _, ran⟩ := ran
    have kept : StoreM.Respects (fun store final => (∃ roster, Graded limit store roster) →
        ∃ roster, Graded limit final roster)
        (members.reverse.forM fun member => discard (StoreM.detach member)) := by
      refine StoreM.Respects.forM (fun _ => id) (fun first second start => second (first start)) _
        fun gone _ store _ final dropped => ?_
      rintro ⟨roster, graded⟩
      obtain ⟨_, detached⟩ := EStateM.discard_eq_ok.mp dropped
      exact ⟨_, graded.detach detached⟩
    exact kept _ _ _ ran ⟨roster, graded⟩
  | resume handle value landing memory =>
    obtain ⟨removed, ran⟩ := ran
    exact ⟨_, graded.thawed (prepare_spec graded.toValid ran)⟩
  | collect visit condemned state =>
    obtain ⟨_, ran⟩ := ran
    have kept := (Visitor.chains_spec graded.toValid ran).kept
    exact ⟨roster, graded.repainted kept⟩
  | age condemned oldest =>
    rcases ran with ⟨aging, _, ran⟩ | ⟨_, same⟩
    · obtain ⟨nonnegative, low⟩ := permitted aging
      exact ⟨roster, graded.refloored (age_refloors nonnegative _ _ _ ran) low
        (Store.age_valid graded.toValid ran)⟩
    · exact ⟨roster, same ▸ graded⟩
  | rejuvenate heap condemned oldest =>
    rcases ran with ⟨aging, _, ran⟩ | ⟨_, same⟩
    · exact ⟨roster, graded.refloored (Rejuvenation.rejuvenate_refloors heap condemned oldest _ _ _ ran)
        (permitted aging).2 (Rejuvenation.rejuvenate_valid graded.toValid ran)⟩
    · exact ⟨roster, same ▸ graded⟩
  | enterQuietScope => exact ⟨roster, ran ▸ graded⟩
  | leaveQuietScope => exact ⟨roster, ran ▸ graded⟩

theorem ReachableBy.graded (nonnegative : Generation.youngest ≤ limit)
    (reachable : ReachableBy (·.Within limit) freezer) : ∃ roster, Graded limit freezer.store roster := by
  induction reachable with
  | fresh settings => exact ⟨{}, .empty⟩
  | step operation _ permitted done ih =>
    obtain ⟨roster, graded⟩ := ih
    exact perform_graded nonnegative graded (fun _ => permitted) done

/-- The head of a chain has the lowest floor and is active exactly if the others are, every floor is active
or a generation that the program has spoken of, and an active frame stays so: no collection passes over it
while its chain is registered. -/
theorem ReachableBy.floors_hold (nonnegative : Generation.youngest ≤ limit)
    (reachable : ReachableBy (·.Within limit) freezer) (live : freezer.frame handle = .ok frame) :
    (∃ head outer members, freezer.chainHead handle = .ok head ∧ freezer.frame head = .ok outer ∧
      freezer.chainMembers head = .ok members ∧ handle ∈ members ∧
      outer.floor ≤ frame.floor ∧ (frame.floor.isActive ↔ outer.floor.isActive)) ∧
    (frame.floor = Generation.active ∨ Generation.youngest ≤ frame.floor ∧ frame.floor ≤ limit) ∧
    (frame.floor.isActive → ∀ later, Stays handle freezer later →
      ∃ now, later.frame handle = .ok now ∧ now.floor.isActive ∧
        ∀ head, later.chainHead handle = .ok head → later.isRegistered head = .ok true →
          ∀ {σ : Type} (visit : Visitor σ) (condemned : Generation) (state : σ) (answer : Nat × σ) (after : Freezer),
            Generation.youngest ≤ condemned → later.collect visit condemned state = .ok (answer, after) →
              Shown visit state answer handle now.layout.roots) := by
  obtain ⟨roster, graded⟩ := reachable.graded nonnegative
  have live := StoreM.frame_eq_ok.mp live
  obtain ⟨before, above, member, _⟩ := graded.place live
  have own : handle ∈ before ++ handle :: above := by simp
  have floor : frame.floor ∈ freezer.store.floors (before ++ handle :: above) :=
    mem_floors.mpr ⟨handle, own, frame, live, rfl⟩
  obtain ⟨inner, head, split, led⟩ := graded.chainHead_of_member member own
  rw [split] at member own floor
  obtain ⟨outer, top⟩ := Option.isSome_iff_exists.mp (graded.live_of_mem member (show head ∈ _ by simp))
  have headFloor : outer.floor ∈ freezer.store.floors (inner ++ [head]) :=
    mem_floors.mpr ⟨head, by simp, outer, top, rfl⟩
  have lowest := graded.lowest _ member head (by simp) outer.floor (floor?_of_frame top) _ floor
  have listed := chainMembers_eq (graded.linked _ member) (graded.chain_distinct member)
  have uniform := graded.uniform _ member
  refine ⟨⟨head, outer, _, led, StoreM.frame_eq_ok.mpr top, listed, by simpa [or_comm] using own, lowest, ?_⟩, ?_,
    fun active later stays => ?_⟩
  · rcases uniform with active | idle
    · rw [active _ floor, active _ headFloor]
    · rw [← not_iff_not, Generation.not_isActive_iff, Generation.not_isActive_iff]
      exact iff_of_true (idle _ floor).1 (idle _ headFloor).1
  · exact uniform.imp (· _ floor) (· _ floor)
  · obtain ⟨now, known, endures⟩ := stays.endures reachable.reachable live
    have still := endures.active active
    refine ⟨now, StoreM.frame_eq_ok.mpr known, still, ?_⟩
    intro head led registered σ visit condemned state answer after nonnegative done
    obtain ⟨roster, _, valid⟩ := (stays.reachable reachable.reachable).history
    have low : now.floor < 0 := by simpa [Generation.isActive] using still
    exact shown_of_collect valid known led registered (Int.le_of_lt (Int.lt_of_lt_of_le low nonnegative)) done

/-- Three frames with an interior pointer each. After one collection the innermost of them runs again. -/
def wakingProgram : List Operation :=
  let frame (sp : Word) : LiveFrame := { sampleFrame sp with references := [⟨sp, true, false⟩] }
  [.capture .blank (fun i => 0x8000 + 0x100 * UInt64.ofNat i) [frame 0x1000, frame 0x1010, frame 0x1020] 0x2000,
    .register ⟨2, 0⟩, .age 0 2, .resume ⟨0, 0⟩ {} { sp := 0x3000 } .blank]

theorem ReachableBy.floors_hold_waking : ∃ frame, (outcome {} wakingProgram).frame ⟨1, 0⟩ = .ok frame ∧
    frame.floor = Generation.active ∧ ∃ answer after,
      (outcome {} wakingProgram).collect noting 0 [] = .ok (answer, after) ∧
        Shown noting [] answer ⟨1, 0⟩ frame.layout.roots := by
  have reachable : ReachableBy (·.Within 2) (outcome {} wakingProgram) := by
    have done : replay {} wakingProgram = .ok (outcome {} wakingProgram) := replay_outcome (by decide +kernel)
    refine (ReachableBy.fresh {}).replayed ?_ done
    simp [wakingProgram, Operation.Within, Generation.youngest]
  have floor : ((outcome {} wakingProgram).frame ⟨1, 0⟩).map (·.floor) = .ok Generation.active := by decide +kernel
  obtain ⟨frame, live, active⟩ := CallStacks.Failure.map_eq_ok.mp floor
  obtain ⟨⟨answer, after⟩, done⟩ := CallStacks.Failure.exists_of_isOk
    (show ((outcome {} wakingProgram).collect noting 0 []).isOk = true by decide +kernel)
  obtain ⟨_, _, later⟩ := reachable.floors_hold (show Generation.youngest ≤ 2 by decide) live
  obtain ⟨now, known, _, shown⟩ := later (by rw [active]; rfl) _ .start
  obtain rfl : frame = now := Except.ok.inj (live.symm.trans known)
  exact ⟨frame, live, active, answer, after, done,
    shown ⟨2, 0⟩ (by decide +kernel) (by decide +kernel) noting 0 [] answer after (by decide) done⟩

end Freezer
end CallStacks.Frozen
