import CallStacks.Proofs.ArenaSlots
import CallStacks.Proofs.Reachability
import CallStacks.Proofs.StoreParts

/-! How slots are used again. In the course of a program a slot is filled and vacated in turn, and its generation
counts how often it has been vacated. So a handle whose frame has gone names no later frame, unless the count has
gone all the way round. -/

namespace CallStacks.Frozen

namespace Store

variable {store middle final : Store}

/-- Slots have been filled, each in its generation, and new ones in the first. -/
def SlotsGrow (store final : Store) : Prop :=
  ∀ index, final.arena.slotAt index = store.arena.slotAt index ∨
    ∃ generation, final.arena.slotAt index = some (generation, true) ∧
      (store.arena.slotAt index = some (generation, false) ∨ store.arena.slotAt index = none ∧ generation = 0)

def SlotsShrink (store final : Store) : Prop :=
  ∀ index, final.arena.slotAt index = store.arena.slotAt index ∨ ∃ generation,
    store.arena.slotAt index = some (generation, true) ∧ final.arena.slotAt index = some (generation + 1, false)

private theorem slotsGrow_blind : Blind SlotsGrow where
  trans {store middle final} first second index := by
    rcases second index with same | ⟨generation, filled, empty⟩
    · rw [same]
      exact first index
    · rcases first index with same | ⟨_, full, _⟩
      · exact .inr ⟨generation, filled, same ▸ empty⟩
      · simp [full] at empty
  setFrame _ _ _ _ := .inl (Arena.slotAt_set _ _ _ _)
  ring same _ := .inl (by rw [same])

private theorem slotsShrink_blind : Blind SlotsShrink where
  trans {store middle final} first second index := by
    rcases first index with same | ⟨generation, filled, vacated⟩
    · rw [← same]
      exact second index
    · rcases second index with same | ⟨_, full, _⟩
      · exact .inr ⟨generation, filled, same.trans vacated⟩
      · simp [vacated] at full
  setFrame _ _ _ _ := .inl (Arena.slotAt_set _ _ _ _)
  ring same _ := .inl (by rw [same])

private theorem insert_grows (frame : FrozenFrame) : StoreM.Respects SlotsGrow (StoreM.insert frame) := by
  intro store answer final done index
  obtain ⟨arena, inserted, rfl⟩ := StoreM.insert_eq_ok.mp done
  exact Arena.slotAt_insert inserted index

private theorem takeOut_shrinks (handle : Handle) : StoreM.Respects SlotsShrink (StoreM.takeOut handle) := by
  intro store answer final done index
  obtain ⟨arena, removed, rfl⟩ := StoreM.takeOut_eq_ok.mp done
  exact Arena.slotAt_remove removed index

end Store

namespace Freezer
open Store

variable {freezer after : Freezer} {earlier : List Freezer} {operation : Operation} {handle : Handle} {index : UInt32}

/-- A run of operations by the freezers that it goes through, the last one first. -/
inductive Timeline : List Freezer → Prop
  | fresh (settings : Settings) : Timeline [{ settings }]
  | step {freezer after : Freezer} {earlier : List Freezer} (operation : Operation)
      (past : Timeline (freezer :: earlier)) (done : freezer.perform operation = .ok after) :
      Timeline (after :: freezer :: earlier)

theorem Timeline.reachable {timeline : List Freezer} (history : Timeline timeline) :
    ∀ past ∈ timeline, Reachable past := by
  induction history with
  | fresh settings =>
    intro past within
    obtain rfl := List.mem_singleton.mp within
    exact .fresh settings
  | step operation _ done ih =>
    intro past within
    rcases List.mem_cons.mp within with rfl | within
    · exact .step operation (ih _ List.mem_cons_self) done
    · exact ih past within

theorem Timeline.replayed {program : List Operation} (history : Timeline (freezer :: earlier))
    (done : program.foldlM perform freezer = .ok after) :
    ∃ between, between.length = program.length + earlier.length ∧ Timeline (after :: between) := by
  induction program generalizing freezer earlier with
  | nil =>
    cases done
    exact ⟨earlier, (Nat.zero_add _).symm, history⟩
  | cons operation rest ih =>
    rw [List.foldlM_cons] at done
    obtain ⟨next, first, others⟩ := CallStacks.Failure.bind_eq_ok.mp done
    obtain ⟨between, length, history⟩ := ih (history.step operation first) others
    exact ⟨between, by rw [length, List.length_cons, List.length_cons]; omega, history⟩

theorem exists_timeline {settings : Settings} {program : List Operation} (done : replay settings program = .ok after) :
    ∃ earlier, earlier.length = program.length ∧ Timeline (after :: earlier) :=
  (Timeline.fresh settings).replayed done

theorem replay_concat {settings : Settings} {program : List Operation}
    (done : replay settings (program ++ [operation]) = .ok after) :
    ∃ last, replay settings program = .ok last ∧ last.perform operation = .ok after := by
  rw [replay, List.foldlM_append] at done
  obtain ⟨last, first, rest⟩ := CallStacks.Failure.bind_eq_ok.mp done
  rw [List.foldlM_cons] at rest
  obtain ⟨next, performed, same⟩ := CallStacks.Failure.bind_eq_ok.mp rest
  cases same
  exact ⟨last, first, performed⟩

def fills (freezer : Freezer) (index : UInt32) : Bool :=
  freezer.store.arena.slots[index.toNat]?.any (·.content.isSome)

def vacancies (index : UInt32) : List Freezer → Nat
  | after :: freezer :: earlier =>
    vacancies index (freezer :: earlier) + (freezer.fills index && !after.fills index).toNat
  | _ => 0

theorem vacancies_le_length (index : UInt32) (freezer : Freezer) (earlier : List Freezer) :
    vacancies index (freezer :: earlier) ≤ earlier.length := by
  induction earlier generalizing freezer with
  | nil => exact Nat.le_refl 0
  | cons before rest ih =>
    rw [vacancies, List.length_cons]
    exact Nat.add_le_add (ih before) (Bool.toNat_le _)

/-- The handle has named a frame that has then been resumed or dropped. -/
def Spent (handle : Handle) : List Freezer → Prop
  | after :: freezer :: earlier =>
    ((freezer.store.arena.find? handle).isSome ∧ after.store.arena.find? handle = none) ∨
      Spent handle (freezer :: earlier)
  | _ => False

private theorem slot_turns (done : freezer.perform operation = .ok after) (index : Nat) :
    after.store.arena.slotAt index = freezer.store.arena.slotAt index ∨
    (∃ generation, after.store.arena.slotAt index = some (generation, true) ∧
      (freezer.store.arena.slotAt index = some (generation, false) ∨
        freezer.store.arena.slotAt index = none ∧ generation = 0)) ∨
    ∃ generation, freezer.store.arena.slotAt index = some (generation, true) ∧
      after.store.arena.slotAt index = some (generation + 1, false) := by
  by_cases freezes : operation.Freezes
  · exact (perform_inserts slotsGrow_blind insert_grows freezes done index).imp id .inl
  · exact (perform_removes slotsShrink_blind takeOut_shrinks freezes done index).imp id .inr

private theorem fills_eq (freezer : Freezer) (index : UInt32) :
    freezer.fills index = (freezer.store.arena.slotAt index.toNat).any (·.2) := by
  unfold fills Arena.slotAt
  cases freezer.store.arena.slots[index.toNat]? <;> rfl

/-- A slot counts how often it has been vacated, from the time when it is made. -/
theorem Timeline.generation_eq (history : Timeline (freezer :: earlier)) (index : UInt32) :
    match freezer.store.arena.slotAt index.toNat with
    | some (generation, _) => generation = UInt32.ofNat (vacancies index (freezer :: earlier))
    | none => vacancies index (freezer :: earlier) = 0 := by
  generalize known : freezer :: earlier = timeline at history
  induction history generalizing freezer earlier with
  | fresh settings =>
    cases known
    rfl
  | step operation past done ih =>
    cases known
    have before := ih rfl
    rw [vacancies, fills_eq, fills_eq]
    rcases slot_turns done index.toNat with same | ⟨generation, now, was | ⟨was, first⟩⟩ | ⟨generation, was, now⟩
    · rw [same]
      simpa using before
    · rw [was] at before
      rw [was, now]
      simpa using before
    · rw [was] at before
      rw [was, now]
      simp [first, before]
    · rw [was] at before
      rw [was, now]
      simp [before, UInt32.ofNat_add]

private theorem slotAt_of_live (live : (freezer.store.arena.find? handle).isSome) :
    freezer.store.arena.slotAt handle.index.toNat = some (handle.generation, true) :=
  Arena.isSome_find?_iff.mp live

theorem Timeline.generation_of_live (history : Timeline (freezer :: earlier))
    (live : (freezer.store.arena.find? handle).isSome) :
    handle.generation = UInt32.ofNat (vacancies handle.index (freezer :: earlier)) := by
  have known := history.generation_eq handle.index
  rw [slotAt_of_live live] at known
  exact known

private theorem vacancies_of_gone (done : freezer.perform operation = .ok after)
    (live : (freezer.store.arena.find? handle).isSome) (gone : after.store.arena.find? handle = none) :
    vacancies handle.index (after :: freezer :: earlier) = vacancies handle.index (freezer :: earlier) + 1 := by
  have held := slotAt_of_live live
  have left : after.store.arena.slotAt handle.index.toNat ≠ some (handle.generation, true) := fun stays => by
    have still := Arena.isSome_find?_iff.mpr stays
    rw [gone] at still
    cases still
  rw [vacancies, fills_eq, fills_eq, held]
  rcases slot_turns done handle.index.toNat with same | ⟨_, _, was | ⟨was, _⟩⟩ | ⟨_, _, now⟩
  · exact absurd (same.trans held) left
  · simp [held] at was
  · simp [held] at was
  · simp [now]

theorem Timeline.generation_of_spent {timeline : List Freezer} (history : Timeline timeline)
    (spent : Spent handle timeline) :
    ∃ count < vacancies handle.index timeline, handle.generation = UInt32.ofNat count := by
  induction history with
  | fresh settings => exact spent.elim
  | step operation past done ih =>
    rcases spent with ⟨live, gone⟩ | spent
    · exact ⟨_, by rw [vacancies_of_gone done live gone]; exact Nat.lt_succ_self _, past.generation_of_live live⟩
    · obtain ⟨count, fewer, same⟩ := ih spent
      exact ⟨count, Nat.lt_of_lt_of_le fewer (by rw [vacancies]; exact Nat.le_add_right _ _), same⟩

/-- A handle whose frame has gone names no frame, as long as its slot has not been vacated too often. -/
theorem Timeline.stale_of_spent (history : Timeline (freezer :: earlier)) (spent : Spent handle (freezer :: earlier))
    (few : vacancies handle.index (freezer :: earlier) < UInt32.size) : freezer.store.arena.find? handle = none := by
  cases live : freezer.store.arena.find? handle with
  | none => rfl
  | some frame =>
    obtain ⟨count, fewer, was⟩ := history.generation_of_spent spent
    have still : (freezer.store.arena.find? handle).isSome := by simp [live]
    have now := history.generation_of_live still
    rw [was, ← UInt32.toNat_inj, UInt32.toNat_ofNat_of_lt' (Nat.lt_trans fewer few),
      UInt32.toNat_ofNat_of_lt' few] at now
    omega

theorem live_of_not_spent (named : ∃ past ∈ freezer :: earlier, (past.store.arena.find? handle).isSome)
    (unspent : ¬ Spent handle (freezer :: earlier)) : (freezer.store.arena.find? handle).isSome := by
  induction earlier generalizing freezer with
  | nil =>
    obtain ⟨past, within, live⟩ := named
    exact List.mem_singleton.mp within ▸ live
  | cons before rest ih =>
    obtain ⟨past, within, live⟩ := named
    rcases List.mem_cons.mp within with rfl | within
    · exact live
    have still := ih ⟨past, within, live⟩ fun spent => unspent (.inr spent)
    cases now : freezer.store.arena.find? handle with
    | some frame => rfl
    | none => exact absurd (.inl ⟨still, now⟩) unspent

end Freezer
end CallStacks.Frozen
