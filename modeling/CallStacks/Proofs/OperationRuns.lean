import CallStacks.Frozen.Freezer
import CallStacks.Proofs.StoreRuns

/-! What a program can ask of a freezer, and what each operation runs on the store. Whatever holds of every run
of these holds of every operation. Operations that fail give no freezer. -/

namespace CallStacks.Frozen

/-- Calls that may change a freezer. -/
inductive Operation : Type 1 where
  | capture (memory : Memory) (place : Nat → Word) (frames : List LiveFrame) (limit : Word)
  | register (head : Handle)
  | unregister (head : Handle)
  | delete (handle : Handle)
  | deleteChain (head : Handle)
  | resume (handle : Handle) (value : ResumeValue) (landing : Landing) (memory : Memory)
  | collect {σ : Type} (visit : Visitor σ) (condemned : Generation) (state : σ)
  | age (condemned oldest : Generation)
  | rejuvenate (heap : Word → Generation) (condemned oldest : Generation)
  | enterQuietScope
  | leaveQuietScope

namespace Freezer

def perform (freezer : Freezer) : Operation → Except Failure Freezer
  | .capture memory place frames limit => (·.2) <$> freezer.capture memory place frames limit
  | .register head => freezer.register head
  | .unregister head => freezer.unregister head
  | .delete handle => freezer.delete handle
  | .deleteChain head => (·.2) <$> freezer.deleteChain head
  | .resume handle value landing memory => (·.2) <$> freezer.resume handle value landing memory
  | .collect visit condemned state => (·.2) <$> freezer.collect visit condemned state
  | .age condemned oldest => freezer.age condemned oldest
  | .rejuvenate heap condemned oldest => (·.2) <$> freezer.rejuvenate heap condemned oldest
  | .enterQuietScope => .ok freezer.enterQuietScope
  | .leaveQuietScope => .ok freezer.leaveQuietScope

variable {freezer after : Freezer} {operation : Operation}

theorem run_eq_ok {α : Type} {operation : StoreM α} {answer : α} :
    freezer.run operation = .ok (answer, after) ↔
      ∃ store, operation freezer.store = .ok answer store ∧ after = { freezer with store } := by
  unfold run
  constructor
  · intro done
    split at done
    next ran =>
      cases done
      exact ⟨_, StoreM.insisting_eq_ok.mp ran, rfl⟩
    next => cases done
  · rintro ⟨store, ran, rfl⟩
    rw [StoreM.insisting_eq_ok.mpr ran]

/-- The run on the store by which an operation leads from one freezer to another. -/
def Ran (freezer after : Freezer) : Operation → Prop
  | .capture memory place frames limit => ∃ visited capture chain,
      Capture.walk ⟨memory, place, freezer.settings.minArgBytes, limit⟩ {} frames = .ok (visited, capture) ∧
        StoreM.install capture.frames freezer.store = .ok chain after.store
  | .register head => StoreM.register head freezer.store = .ok () after.store
  | .unregister head => StoreM.unregister head freezer.store = .ok () after.store
  | .delete handle => ∃ removed, StoreM.detach handle freezer.store = .ok removed after.store
  | .deleteChain head => ∃ members, freezer.store.chainMembers head = .ok members ∧
      (members.reverse.forM fun member => discard (StoreM.detach member)) freezer.store = .ok () after.store
  | .resume handle _ landing _ => ∃ removed,
      StoreM.prepare handle landing.sp freezer.store = .ok removed after.store
  | .collect visit condemned state => ∃ answer, visit.chains condemned state freezer.store = .ok answer after.store
  | .age condemned oldest =>
      freezer.settings.aging = true ∧ (∃ count, StoreM.age condemned oldest freezer.store = .ok count after.store) ∨
        freezer.settings.aging = false ∧ after.store = freezer.store
  | .rejuvenate heap condemned oldest =>
      freezer.settings.aging = true ∧
          (∃ answer, StoreM.rejuvenate heap condemned oldest freezer.store = .ok answer after.store) ∨
        freezer.settings.aging = false ∧ after.store = freezer.store
  | .enterQuietScope | .leaveQuietScope => after.store = freezer.store

theorem collecting_eq_ok {α : Type} {part : Except Failure α} {answer : α} :
    freezer.collecting part = .ok answer ↔ freezer.quietScopes = 0 ∧ part = .ok answer := by
  unfold collecting
  split <;> simp_all

theorem perform_ran (done : freezer.perform operation = .ok after) :
    freezer.Ran after operation ∧ after.settings = freezer.settings := by
  cases operation with
  | capture memory place frames limit =>
    obtain ⟨⟨⟨visited, captured⟩, _⟩, ran, rfl⟩ := CallStacks.Failure.map_eq_ok.mp done
    unfold Freezer.capture at ran
    obtain ⟨⟨count, capture⟩, walked, ran⟩ := CallStacks.Failure.bind_eq_ok.mp ran
    obtain ⟨⟨chain, middle⟩, installed, ran⟩ := CallStacks.Failure.bind_eq_ok.mp ran
    have walked := CallStacks.Failure.ofStop_eq_ok.mp walked
    obtain ⟨store, stored, rfl⟩ := run_eq_ok.mp installed
    cases chain <;> cases ran <;> exact ⟨⟨_, _, _, walked, stored⟩, rfl⟩
  | register head =>
    obtain ⟨⟨_, _⟩, ran, same⟩ := CallStacks.Failure.bind_eq_ok.mp done
    cases same
    obtain ⟨store, stored, rfl⟩ := run_eq_ok.mp ran
    exact ⟨stored, rfl⟩
  | unregister head =>
    obtain ⟨⟨_, _⟩, ran, same⟩ := CallStacks.Failure.bind_eq_ok.mp done
    cases same
    obtain ⟨store, stored, rfl⟩ := run_eq_ok.mp ran
    exact ⟨stored, rfl⟩
  | delete handle =>
    obtain ⟨⟨removed, _⟩, ran, same⟩ := CallStacks.Failure.bind_eq_ok.mp done
    cases same
    obtain ⟨store, stored, rfl⟩ := run_eq_ok.mp ran
    exact ⟨⟨removed, stored⟩, rfl⟩
  | deleteChain head =>
    obtain ⟨⟨count, _⟩, ran, rfl⟩ := CallStacks.Failure.map_eq_ok.mp done
    obtain ⟨⟨dropped, _⟩, stepped, same⟩ := CallStacks.Failure.bind_eq_ok.mp ran
    cases same
    obtain ⟨store, stored, rfl⟩ := run_eq_ok.mp stepped
    obtain ⟨members, _, asked, stored⟩ := EStateM.bind_eq_ok.mp stored
    obtain ⟨listed, rfl⟩ := StoreM.ask_eq_ok.mp asked
    obtain ⟨_, last, dropped, ended⟩ := EStateM.bind_eq_ok.mp stored
    obtain ⟨_, rfl⟩ := EStateM.pure_eq_ok.mp ended
    exact ⟨⟨members, listed, dropped⟩, rfl⟩
  | resume handle value landing memory =>
    obtain ⟨⟨resumption, _⟩, ran, rfl⟩ := CallStacks.Failure.map_eq_ok.mp done
    obtain ⟨⟨removed, _⟩, stepped, rest⟩ := CallStacks.Failure.bind_eq_ok.mp ran
    obtain ⟨_, _, same⟩ := CallStacks.Failure.bind_eq_ok.mp rest
    cases same
    obtain ⟨store, stored, rfl⟩ := run_eq_ok.mp stepped
    exact ⟨⟨removed, stored⟩, rfl⟩
  | collect visit condemned state =>
    obtain ⟨⟨answer, _⟩, ran, rfl⟩ := CallStacks.Failure.map_eq_ok.mp done
    obtain ⟨_, ran⟩ := collecting_eq_ok.mp ran
    obtain ⟨store, stored, rfl⟩ := run_eq_ok.mp ran
    exact ⟨⟨answer, stored⟩, rfl⟩
  | age condemned oldest =>
    change freezer.age condemned oldest = .ok after at done
    unfold Freezer.age at done
    split at done
    next aging =>
      obtain ⟨_, done⟩ := collecting_eq_ok.mp done
      obtain ⟨⟨count, _⟩, ran, same⟩ := CallStacks.Failure.bind_eq_ok.mp done
      cases same
      obtain ⟨store, stored, rfl⟩ := run_eq_ok.mp ran
      exact ⟨.inl ⟨aging, count, stored⟩, rfl⟩
    next still =>
      cases done
      exact ⟨.inr ⟨by simpa using still, rfl⟩, rfl⟩
  | rejuvenate heap condemned oldest =>
    obtain ⟨⟨answer, _⟩, ran, rfl⟩ := CallStacks.Failure.map_eq_ok.mp done
    unfold Freezer.rejuvenate at ran
    split at ran
    next aging =>
      obtain ⟨_, ran⟩ := collecting_eq_ok.mp ran
      obtain ⟨store, stored, rfl⟩ := run_eq_ok.mp ran
      exact ⟨.inl ⟨aging, answer, stored⟩, rfl⟩
    next still =>
      cases ran
      exact ⟨.inr ⟨by simpa using still, rfl⟩, rfl⟩
  | enterQuietScope =>
    cases done
    exact ⟨rfl, rfl⟩
  | leaveQuietScope =>
    cases done
    exact ⟨rfl, rfl⟩

end Freezer
end CallStacks.Frozen
