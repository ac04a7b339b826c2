import CallStacks.Proofs.CaptureWalk
import CallStacks.Proofs.CollectorVisits
import CallStacks.Proofs.FloorUpkeep
import CallStacks.Proofs.OperationRuns
import CallStacks.Proofs.Thawing

/-! What a program can do to a freezer, in any order, and the roster that the history of operations
gives. Operations that fail give no freezer, so a history has none of them. -/

namespace CallStacks.Frozen

namespace Freezer

inductive Reachable : Freezer → Prop
  | fresh (settings : Settings) : Reachable { settings }
  | step {freezer after : Freezer} (operation : Operation) (past : Reachable freezer)
      (done : freezer.perform operation = .ok after) : Reachable after

inductive ReachableBy (allowed : Operation → Prop) : Freezer → Prop
  | fresh (settings : Settings) : ReachableBy allowed { settings }
  | step {freezer after : Freezer} (operation : Operation) (past : ReachableBy allowed freezer)
      (permitted : allowed operation) (done : freezer.perform operation = .ok after) : ReachableBy allowed after

theorem ReachableBy.reachable {allowed : Operation → Prop} {freezer : Freezer}
    (reachable : ReachableBy allowed freezer) : Reachable freezer := by
  induction reachable with
  | fresh settings => exact .fresh settings
  | step operation _ _ done ih => exact .step operation ih done

theorem ReachableBy.replayed {allowed : Operation → Prop} {freezer after : Freezer} {program : List Operation}
    (past : ReachableBy allowed freezer) (permitted : ∀ operation ∈ program, allowed operation)
    (done : program.foldlM perform freezer = .ok after) : ReachableBy allowed after := by
  apply CallStacks.Failure.foldlM_invariant (ReachableBy allowed) done past
  exact fun operation within _ _ past done => .step operation past (permitted operation within) done

def replay (settings : Settings) (program : List Operation) : Except Failure Freezer :=
  program.foldlM perform { settings }

theorem Reachable.replayed {freezer after : Freezer} {program : List Operation}
    (past : Reachable freezer) (done : program.foldlM perform freezer = .ok after) : Reachable after := by
  apply CallStacks.Failure.foldlM_invariant Reachable done past
  exact fun operation _ _ _ past done => .step operation past done

theorem reachable_of_replay {settings : Settings} {program : List Operation} {after : Freezer}
    (done : replay settings program = .ok after) : Reachable after :=
  (Reachable.fresh settings).replayed done

def sampleFrame (sp : Word) : LiveFrame :=
  { holdsMark := true
    sp
    callerSp := sp + 16
    returnSlot := sp + 8
    references := [⟨sp, false, false⟩] }

/-- Two suspended chains. One is registered and has two frames; the other is hidden and has lost its
head. -/
def sampleProgram : List Operation :=
  [.capture .blank (fun i => 0x8000 + 0x100 * UInt64.ofNat i) [sampleFrame 0x1000, sampleFrame 0x1010] 0x2000,
    .register ⟨1, 0⟩,
    .capture .blank (fun i => 0x9000 + 0x100 * UInt64.ofNat i) [sampleFrame 0x1000, sampleFrame 0x1010] 0x2000,
    .delete ⟨3, 0⟩]

def sample : Freezer :=
  match replay {} sampleProgram with
  | .ok freezer => freezer
  | .error _ => {}

theorem replayed_sample : replay {} sampleProgram = .ok sample := by
  have succeeds : (replay {} sampleProgram).isOk = true := by decide +kernel
  unfold sample
  cases answer : replay {} sampleProgram with
  | ok freezer => rfl
  | error failure =>
    rw [answer] at succeeds
    cases succeeds

theorem reachable_sample : Reachable sample := reachable_of_replay replayed_sample

def outcome (settings : Settings) (program : List Operation) : Freezer :=
  match replay settings program with
  | .ok freezer => freezer
  | .error _ => {}

theorem replay_outcome {settings : Settings} {program : List Operation}
    (succeeds : (replay settings program).isOk = true) :
    replay settings program = .ok (outcome settings program) := by
  obtain ⟨freezer, done⟩ := CallStacks.Failure.exists_of_isOk succeeds
  rw [outcome, done]

end Freezer

/-- What an operation makes of a roster. A capture adds the chain of the handles it has made. -/
inductive Roster.Follows (roster : Roster) : Operation → Roster → Prop
  | capture (memory : Memory) (place : Nat → Word) (frames : List LiveFrame) (limit : Word)
      (handles : List Handle) : Follows roster (.capture memory place frames limit) (roster.add handles)
  | register (head : Handle) : Follows roster (.register head) (roster.reveal head)
  | unregister (head : Handle) : Follows roster (.unregister head) (roster.conceal head)
  | delete (handle : Handle) : Follows roster (.delete handle) (roster.without [handle])
  | deleteChain {before after : List Handle} (head : Handle)
      (member : before ++ head :: after ∈ roster.chains) :
      Follows roster (.deleteChain head) (roster.without (before ++ [head]))
  | resume (handle : Handle) (value : ResumeValue) (landing : Landing) (memory : Memory) :
      Follows roster (.resume handle value landing memory) (roster.without [handle])
  | collect {σ : Type} (visit : Visitor σ) (condemned : Generation) (state : σ) :
      Follows roster (.collect visit condemned state) roster
  | age (condemned oldest : Generation) : Follows roster (.age condemned oldest) roster
  | rejuvenate (heap : Word → Generation) (condemned oldest : Generation) :
      Follows roster (.rejuvenate heap condemned oldest) roster
  | enterQuietScope : Follows roster .enterQuietScope roster
  | leaveQuietScope : Follows roster .leaveQuietScope roster

namespace Freezer
open Store

variable {freezer after : Freezer} {roster : Roster}

/-- A run of operations with the roster that they give. -/
inductive History : Freezer → Roster → Prop
  | fresh (settings : Settings) : History { settings } {}
  | step {freezer after : Freezer} {roster next : Roster} (operation : Operation)
      (past : History freezer roster) (done : freezer.perform operation = .ok after)
      (follows : roster.Follows operation next) (represents : Represents after.store next) :
      History after next

theorem capture_spec {memory : Memory} {place : Nat → Word} {frames : List LiveFrame} {limit : Word}
    {visited : Nat} {chain : Option Chain} (valid : Valid freezer.store roster)
    (done : freezer.capture memory place frames limit = .ok ((visited, chain), after)) :
    ∃ capture handles,
      Capture.walk ⟨memory, place, freezer.settings.minArgBytes, limit⟩ {} frames =
        .ok (visited, capture) ∧
      chain = Chain.of? handles ∧ Installed capture.frames handles freezer.store after.store ∧
      Valid after.store (roster.add handles) := by
  unfold Freezer.capture at done
  obtain ⟨⟨count, capture⟩, walked, done⟩ := CallStacks.Failure.bind_eq_ok.mp done
  obtain ⟨⟨answer, middle⟩, ran, done⟩ := CallStacks.Failure.bind_eq_ok.mp done
  have walked := CallStacks.Failure.ofStop_eq_ok.mp walked
  obtain ⟨store, installed, rfl⟩ := run_eq_ok.mp ran
  obtain ⟨handles, named, facts, valid'⟩ :=
    install_valid valid (Capture.fresh_of_walk walked) installed
  cases answer with
  | none =>
    cases done
    exact ⟨capture, handles, walked, named, facts, valid'⟩
  | some chain =>
    cases done
    exact ⟨capture, handles, walked, named, facts, valid'⟩

theorem resume_spec {handle : Handle} {value : ResumeValue} {landing : Landing} {memory : Memory}
    {resumption : Resumption} (valid : Valid freezer.store roster)
    (done : freezer.resume handle value landing memory = .ok (resumption, after)) :
    ∃ removed, Thawed freezer.store roster handle landing.sp removed after.store ∧
      ∃ finish, removed.splice value landing memory = .ok (resumption.reloads, finish, resumption.memory) := by
  unfold Freezer.resume at done
  obtain ⟨⟨removed, middle⟩, ran, done⟩ := CallStacks.Failure.bind_eq_ok.mp done
  obtain ⟨⟨reloads, finish, last⟩, spliced, done⟩ := CallStacks.Failure.bind_eq_ok.mp done
  cases done
  obtain ⟨store, stored, rfl⟩ := run_eq_ok.mp ran
  exact ⟨removed, prepare_spec valid stored, finish, CallStacks.Failure.ofStop_eq_ok.mp spliced⟩

theorem collect_spec {σ : Type} {visit : Visitor σ} {condemned : Generation} {state : σ}
    {answer : Nat × σ} (valid : Valid freezer.store roster)
    (done : freezer.collect visit condemned state = .ok (answer, after)) :
    Visitor.Reported visit (freezer.store.due condemned (roster.registered.flatMap List.reverse))
      (0, state) answer freezer.store after.store ∧ after = { freezer with store := after.store } := by
  unfold Freezer.collect collecting at done
  split at done
  · obtain ⟨store, ran, rfl⟩ := run_eq_ok.mp done
    exact ⟨Visitor.chains_spec valid ran, rfl⟩
  · cases done

/-- Every operation that succeeds keeps the store valid and moves the roster on. -/
theorem perform_valid {operation : Operation} (valid : Valid freezer.store roster)
    (done : freezer.perform operation = .ok after) :
    ∃ next, roster.Follows operation next ∧ Valid after.store next := by
  obtain ⟨ran, _⟩ := perform_ran done
  cases operation with
  | capture memory place frames limit =>
    obtain ⟨_, capture, _, walked, stored⟩ := ran
    obtain ⟨handles, _, _, valid'⟩ := install_valid valid (Capture.fresh_of_walk walked) stored
    exact ⟨_, .capture memory place frames limit handles, valid'⟩
  | register head => exact ⟨_, .register head, (register_spec valid ran).2⟩
  | unregister head => exact ⟨_, .unregister head, (unregister_spec valid ran).2⟩
  | delete handle =>
    obtain ⟨_, ran⟩ := ran
    obtain ⟨_, _, _, valid', _⟩ := detached_of_detach valid ran
    exact ⟨_, .delete handle, valid'⟩
  | deleteChain head =>
    obtain ⟨members, listed, ran⟩ := ran
    obtain ⟨_, _, member, _, valid'⟩ := detachAll_of_chainMembers valid listed ran
    exact ⟨_, .deleteChain head member, valid'⟩
  | resume handle value landing memory =>
    obtain ⟨removed, ran⟩ := ran
    exact ⟨_, .resume handle value landing memory, (prepare_spec valid ran).valid⟩
  | collect visit condemned state =>
    obtain ⟨_, ran⟩ := ran
    exact ⟨_, .collect visit condemned state, valid.repainted (Visitor.chains_spec valid ran).kept⟩
  | age condemned oldest =>
    refine ⟨_, .age condemned oldest, ?_⟩
    rcases ran with ⟨_, _, ran⟩ | ⟨_, same⟩
    · exact Store.age_valid valid ran
    · exact same ▸ valid
  | rejuvenate heap condemned oldest =>
    refine ⟨_, .rejuvenate heap condemned oldest, ?_⟩
    rcases ran with ⟨_, _, ran⟩ | ⟨_, same⟩
    · exact Rejuvenation.rejuvenate_valid valid ran
    · exact same ▸ valid
  | enterQuietScope => exact ⟨_, .enterQuietScope, ran ▸ valid⟩
  | leaveQuietScope => exact ⟨_, .leaveQuietScope, ran ▸ valid⟩

/-- Every freezer that a program can come to has a roster, and its store is valid. -/
theorem Reachable.history (reachable : Reachable freezer) :
    ∃ roster, History freezer roster ∧ Valid freezer.store roster := by
  induction reachable with
  | fresh settings => exact ⟨{}, .fresh settings, Valid.empty⟩
  | step operation _ done ih =>
    obtain ⟨roster, history, valid⟩ := ih
    obtain ⟨next, follows, valid'⟩ := perform_valid valid done
    exact ⟨next, .step operation history done follows valid'.toRepresents, valid'⟩

theorem isRegistered_run {before : List Handle} {head : Handle} (valid : Valid freezer.store roster)
    (member : before ++ [head] ∈ roster.chains) :
    ∃ shown, freezer.isRegistered head = .ok shown ∧ (shown = true ↔ before ++ [head] ∈ roster.registered) := by
  obtain ⟨frame, live⟩ := Option.isSome_iff_exists.mp (valid.live_of_mem member (show head ∈ _ by simp))
  refine ⟨frame.isRegistered, ?_, ?_⟩
  · unfold Freezer.isRegistered
    rw [StoreM.frame_eq_ok.mpr live]
    rfl
  · rw [valid.registered_iff live, Represents.mem_heads_iff]
    constructor
    · rintro ⟨start, inside⟩
      have shared := eq_of_shared valid.distinct (List.mem_append_left _ inside) member
        (show head ∈ start ++ [head] by simp) (by simp)
      exact shared ▸ inside
    · exact fun inside => ⟨before, inside⟩

end Freezer
end CallStacks.Frozen
