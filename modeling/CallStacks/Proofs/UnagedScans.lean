import CallStacks.Proofs.FloorSafety

/-! Collections of a freezer that keeps no floors. Nothing but aging raises a floor: a capture starts at the
youngest generation, a resumption makes frames active, and a head is handed the lowest floor of its chain. So
with aging off no collection can pass over a frame. -/

namespace CallStacks.Frozen
namespace Store

variable {store : Store} {roster : Roster} {handle : Handle} {frame : FrozenFrame} {condemned limit : Generation}
  {handles : List Handle}

def rootsOf (store : Store) (handles : List Handle) : List (Handle × Root) :=
  handles.flatMap fun handle => ((store.arena.find? handle).elim [] (·.layout.roots)).map (handle, ·)

private theorem due_eq_rootsOf (low : ∀ handle ∈ handles, ∀ frame, store.arena.find? handle = some frame →
    frame.floor ≤ condemned) : store.due condemned handles = store.rootsOf handles := by
  apply List.flatMap_congr
  intro handle within
  cases live : store.arena.find? handle with
  | none => simp only [dueOf, live, Option.elim_none, List.map_nil]
  | some frame => rw [dueOf_of_low live (low handle within frame live), Option.elim_some]

theorem Graded.floor_cases (graded : Graded limit store roster) (live : store.arena.find? handle = some frame) :
    frame.floor = Generation.active ∨ Generation.youngest ≤ frame.floor ∧ frame.floor ≤ limit := by
  obtain ⟨before, after, member, _⟩ := graded.place live
  have floor : frame.floor ∈ store.floors (before ++ handle :: after) :=
    mem_floors.mpr ⟨handle, by simp, frame, live, rfl⟩
  exact (graded.uniform _ member).imp (· _ floor) (· _ floor)

end Store

namespace Freezer
open Store

variable {freezer after : Freezer} {roster : Roster} {handle head : Handle} {frame : FrozenFrame}

/-- Aging that is off is off for good, so whatever is asked of it speaks of no generation at all. -/
theorem Reachable.graded_unaged (reachable : Reachable freezer) (unaged : freezer.settings.aging = false) :
    ∃ roster, Graded Generation.youngest freezer.store roster := by
  induction reachable with
  | fresh settings => exact ⟨{}, .empty⟩
  | step operation _ done ih =>
    rw [(perform_ran done).2] at unaged
    obtain ⟨roster, graded⟩ := ih unaged
    apply perform_graded (Int.le_refl _) graded _ done
    intro aging
    cases unaged.symm.trans aging

theorem Reachable.floor_unaged (reachable : Reachable freezer) (unaged : freezer.settings.aging = false)
    (live : freezer.store.arena.find? handle = some frame) :
    frame.floor = Generation.youngest ∨ frame.floor = Generation.active := by
  obtain ⟨roster, graded⟩ := reachable.graded_unaged unaged
  rcases graded.floor_cases live with active | ⟨above, below⟩
  · exact .inr active
  · exact .inl (Int.le_antisymm below above)

private theorem members_of_registered (valid : Valid freezer.store roster)
    (registered : freezer.isRegistered head = .ok true) :
    ∃ before, before ++ [head] ∈ roster.registered ∧
      freezer.chainMembers head = .ok (before ++ [head]).reverse := by
  obtain ⟨frame, known, shown⟩ := CallStacks.Failure.bind_eq_ok.mp registered
  have listed := (valid.registered_iff (StoreM.frame_eq_ok.mp known)).mp (Except.ok.inj shown)
  obtain ⟨before, inside⟩ := Represents.mem_heads_iff.mp listed
  have member : before ++ [head] ∈ roster.chains := List.mem_append_left _ inside
  refine ⟨before, inside, ?_⟩
  rw [List.reverse_append]
  exact chainMembers_eq (valid.linked _ member) (valid.chain_distinct member)

/-- With aging off every floor is the youngest generation or active, and every collection reports every root of
every registered chain. -/
theorem Reachable.scans_everything (reachable : Reachable freezer) (unaged : freezer.settings.aging = false) :
    (∀ handle frame, freezer.frame handle = .ok frame →
      frame.floor = Generation.youngest ∨ frame.floor = Generation.active) ∧
    ∀ {σ : Type} (visit : Visitor σ) (condemned : Generation) (state last : σ) (count : Nat) (after : Freezer),
      Generation.youngest ≤ condemned → freezer.collect visit condemned state = .ok ((count, last), after) →
        ∃ roster, History freezer roster ∧ Represents freezer.store roster ∧ ∃ reports : List RootSlot,
          reports.map (fun slot => (slot.owner, slot.root)) = freezer.store.rootsOf roster.scanned ∧
          count = reports.length ∧ last = visit.told state reports ∧
          ∀ head, freezer.isRegistered head = .ok true →
            ∃ members, freezer.chainMembers head = .ok members ∧ ∀ handle ∈ members,
              ∃ frame, freezer.frame handle = .ok frame ∧
                ∀ root ∈ frame.layout.roots, ∃ value, ⟨handle, root, value⟩ ∈ reports := by
  refine ⟨fun handle frame live => reachable.floor_unaged unaged (StoreM.frame_eq_ok.mp live), ?_⟩
  intro σ visit condemned state last count after nonnegative done
  obtain ⟨roster, history, valid⟩ := reachable.history
  obtain ⟨reports, slots, answer, _⟩ := (collect_spec valid done).1.reports
  obtain ⟨rfl, rfl⟩ := Prod.mk.inj answer
  have low : ∀ handle ∈ roster.scanned, ∀ frame, freezer.store.arena.find? handle = some frame →
      frame.floor ≤ condemned := by
    intro handle _ frame live
    rcases reachable.floor_unaged unaged live with floor | floor
    · exact floor ▸ nonnegative
    · exact floor ▸ Int.le_trans (by decide) nonnegative
  have all : reports.map (fun slot => (slot.owner, slot.root)) = freezer.store.rootsOf roster.scanned :=
    slots.trans (due_eq_rootsOf low)
  refine ⟨roster, history, valid.toRepresents, reports, all, Nat.zero_add _, rfl, fun head registered => ?_⟩
  obtain ⟨before, inside, listed⟩ := members_of_registered valid registered
  refine ⟨_, listed, fun handle within => ?_⟩
  have member : before ++ [head] ∈ roster.chains := List.mem_append_left _ inside
  have own := List.mem_reverse.mp within
  obtain ⟨frame, live⟩ := Option.isSome_iff_exists.mp (valid.live_of_mem member own)
  refine ⟨frame, StoreM.frame_eq_ok.mpr live, fun root recorded => ?_⟩
  have due : (handle, root) ∈ freezer.store.rootsOf roster.scanned := by
    apply List.mem_flatMap.mpr
    refine ⟨handle, Roster.mem_scanned.mpr (List.mem_flatten.mpr ⟨_, inside, own⟩), ?_⟩
    rw [live]
    exact List.mem_map_of_mem recorded
  rw [← all] at due
  obtain ⟨slot, reported, same⟩ := List.mem_map.mp due
  cases same
  exact ⟨slot.value, reported⟩

/-- Two chains, both registered, and everything that could raise a floor asked for. The frame that is left of
the first chain is active; the other chain has a frame that could not be younger. -/
def unagedProgram : List Operation :=
  let frame (sp : Word) : LiveFrame := { sampleFrame sp with references := [⟨sp, true, false⟩] }
  [.capture .blank (fun i => 0x8000 + 0x100 * UInt64.ofNat i) [frame 0x1000, frame 0x1010] 0x2000, .register ⟨1, 0⟩,
    .capture .blank (fun _ => 0x9000) [sampleFrame 0x1000] 0x2000, .register ⟨2, 0⟩, .age 0 2, .age 1 3,
    .resume ⟨0, 0⟩ {} { sp := 0x3000 } .blank, .rejuvenate (fun _ => 7) 2 9, .age 9 9]

theorem Reachable.scans_everything_resumed : let freezer := outcome { aging := false } unagedProgram
    freezer.settings.aging = false ∧
    (freezer.frame ⟨1, 0⟩).map (·.floor) = .ok Generation.active ∧
    (freezer.frame ⟨2, 0⟩).map (·.floor) = .ok Generation.youngest ∧
    ∃ reports after, freezer.collect noting 0 [] = .ok ((2, noting.told [] reports), after) ∧ reports.length = 2 ∧
      ∃ frame, freezer.frame ⟨1, 0⟩ = .ok frame ∧ ∀ root ∈ frame.layout.roots, ∃ value, ⟨⟨1, 0⟩, root, value⟩ ∈ reports := by
  have reachable := reachable_of_replay
    (replay_outcome (show (replay { aging := false } unagedProgram).isOk = true by decide +kernel))
  have unaged : (outcome { aging := false } unagedProgram).settings.aging = false := by decide +kernel
  have counted : ((outcome { aging := false } unagedProgram).collect noting 0 []).map (·.1.1) = .ok 2 := by
    decide +kernel
  obtain ⟨⟨⟨count, last⟩, after⟩, done, rfl⟩ := CallStacks.Failure.map_eq_ok.mp counted
  obtain ⟨_, _, _, reports, _, same, rfl, all⟩ :=
    (reachable.scans_everything unaged).2 noting 0 [] last _ after (by decide) done
  obtain ⟨members, listed, shown⟩ := all ⟨1, 0⟩ (by decide +kernel)
  have own : (outcome { aging := false } unagedProgram).chainMembers ⟨1, 0⟩ = .ok [⟨1, 0⟩] := by decide +kernel
  cases own.symm.trans listed
  exact ⟨unaged, by decide +kernel, by decide +kernel, reports, after, done, same.symm, shown ⟨1, 0⟩ (by simp)⟩

end Freezer
end CallStacks.Frozen
