import Mathlib.Logic.Relation
import CallStacks.Proofs.GreenPrograms

/-! Programs on green stacks, one call at a time. Between two calls a run is at a moment: a function is about to go
on, others wait for it to return, and the thread is as the last call left it. The steps from one moment to the next
come to all that a run of the whole program comes to. -/

namespace CallStacks.Green

/-- A function that has called another one on another stack, and what it does once that has returned. -/
inductive Caller where
  | green (call : Call) (next : Program)
  | os (call : Call) (wasOnOs : Bool) (next : Program)

/-- A run between two calls. The callers stand innermost first. -/
structure Moment where
  program : Program
  callers : List Caller := []
  run : Run

inductive Move where
  | perform (operation : Operation)
  | enterGreen
  | leaveGreen
  | enterOs
  | leaveOs

namespace Moment

variable {place : Nat → Word} {program next rest : Program} {callers : List Caller} {run run' last : Run}
  {moment after : Moment} {move : Move} {depth depth' : Nat}

def thread (moment : Moment) : Thread := moment.run.world.thread

/-- One call, the start of one, or its end. A call that is refused runs no function. -/
inductive Step (place : Nat → Word) : Move → Moment → Moment → Prop
  | perform {operation : Operation} {next : Program} {callers : List Caller} {run run' : Run}
      (done : operation.run place callers.length run = .ok () run') :
      Step place (.perform operation) ⟨.perform operation next, callers, run⟩ ⟨next, callers, run'⟩
  | enterGreen {call : Call} {body next : Program} {callers : List Caller} {run run' : Run}
      (started : call.startGreen place callers.length run = .ok (.ok ()) run') :
      Step place .enterGreen ⟨.enterGreen call body next, callers, run⟩ ⟨body, .green call next :: callers, run'⟩
  | refuseGreen {call : Call} {body next : Program} {callers : List Caller} {run run' : Run} {refusal : Refusal}
      (refused : call.startGreen place callers.length run = .ok (.error refusal) run') :
      Step place .enterGreen ⟨.enterGreen call body next, callers, run⟩ ⟨next, callers, run'⟩
  | leaveGreen {call : Call} {next : Program} {callers : List Caller} {run run' : Run}
      (finished : call.finishGreen callers.length run = .ok () run') :
      Step place .leaveGreen ⟨.done, .green call next :: callers, run⟩ ⟨next, callers, run'⟩
  | enterOs {call : Call} {body next : Program} {callers : List Caller} {run run' : Run} {wasOnOs : Bool}
      (started : call.startOs callers.length run = .ok (.ok wasOnOs) run') :
      Step place .enterOs ⟨.enterOs call body next, callers, run⟩ ⟨body, .os call wasOnOs next :: callers, run'⟩
  | refuseOs {call : Call} {body next : Program} {callers : List Caller} {run run' : Run} {refusal : Refusal}
      (refused : call.startOs callers.length run = .ok (.error refusal) run') :
      Step place .enterOs ⟨.enterOs call body next, callers, run⟩ ⟨next, callers, run'⟩
  | leaveOs {call : Call} {wasOnOs : Bool} {next : Program} {callers : List Caller} {run run' : Run}
      (finished : call.finishOs callers.length wasOnOs run = .ok () run') :
      Step place .leaveOs ⟨.done, .os call wasOnOs next :: callers, run⟩ ⟨next, callers, run'⟩

def Leads (place : Nat → Word) : Moment → Moment → Prop :=
  Relation.ReflTransGen fun moment after => ∃ move, Step place move moment after

theorem Step.leads (step : Step place move moment after) : Leads place moment after := .single ⟨move, step⟩

def Followed (place : Nat → Word) (program : Program) : Prop :=
  ∀ (callers : List Caller) (run last : Run), program.run place callers.length run = .ok () last →
    Leads place ⟨program, callers, run⟩ ⟨.done, callers, last⟩

private theorem leads_past_green {call : Call} {body : Program} {answer : Except Refusal Word}
    (followed : Followed place body)
    (called : call.onGreen place callers.length (body.run place (callers.length + 1)) run = .ok answer run') :
    Leads place ⟨.enterGreen call body next, callers, run⟩ ⟨next, callers, run'⟩ := by
  obtain ⟨started | _, inner, starting, rest⟩ := EStateM.bind_eq_ok.mp called
  · cases rest
    exact (Step.refuseGreen starting).leads
  · obtain ⟨_, left, ran, rest⟩ := EStateM.bind_eq_ok.mp rest
    obtain ⟨_, _, finished, same⟩ := EStateM.bind_eq_ok.mp rest
    cases same
    have within := followed (.green call next :: callers) inner left ran
    exact (Step.enterGreen starting).leads.trans (within.trans (Step.leaveGreen finished).leads)

private theorem leads_past_os {call : Call} {body : Program} {answer : Except Refusal Word}
    (followed : Followed place body)
    (called : call.onOs callers.length (body.run place (callers.length + 1)) run = .ok answer run') :
    Leads place ⟨.enterOs call body next, callers, run⟩ ⟨next, callers, run'⟩ := by
  obtain ⟨started | wasOnOs, inner, starting, rest⟩ := EStateM.bind_eq_ok.mp called
  · cases rest
    exact (Step.refuseOs starting).leads
  · obtain ⟨_, left, ran, rest⟩ := EStateM.bind_eq_ok.mp rest
    obtain ⟨_, _, finished, same⟩ := EStateM.bind_eq_ok.mp rest
    cases same
    have within := followed (.os call wasOnOs next :: callers) inner left ran
    exact (Step.enterOs starting).leads.trans (within.trans (Step.leaveOs finished).leads)

private theorem followed (place : Nat → Word) (program : Program) : Followed place program := by
  induction program with
  | done =>
    intro callers run last done
    cases done
    exact .refl
  | perform operation next ih =>
    intro callers run last done
    obtain ⟨_, middle, performed, later⟩ := EStateM.bind_eq_ok.mp done
    exact (Step.perform performed).leads.trans (ih callers middle last later)
  | enterGreen call body next inside after =>
    intro callers run last done
    rw [Program.run_enterGreen] at done
    obtain ⟨_, middle, called, later⟩ := EStateM.bind_eq_ok.mp done
    exact (leads_past_green inside called).trans (after callers middle last later)
  | enterOs call body next inside after =>
    intro callers run last done
    rw [Program.run_enterOs] at done
    obtain ⟨_, middle, called, later⟩ := EStateM.bind_eq_ok.mp done
    exact (leads_past_os inside called).trans (after callers middle last later)

/-- What callers still run once the function that runs has returned. -/
def unwind (place : Nat → Word) : List Caller → RunM Unit
  | [] => return
  | .green call next :: callers => do
    call.finishGreen callers.length
    next.run place callers.length
    unwind place callers
  | .os call wasOnOs next :: callers => do
    call.finishOs callers.length wasOnOs
    next.run place callers.length
    unwind place callers

def outcome (place : Nat → Word) (moment : Moment) : EStateM.Result Fault Run Unit :=
  (do
    moment.program.run place moment.callers.length
    unwind place moment.callers : RunM Unit) moment.run

theorem Step.outcome_eq (step : Step place move moment after) : moment.outcome place = after.outcome place := by
  unfold outcome
  cases step with
  | perform done => simp only [Program.run, bind_assoc, EStateM.bind_of_ok done]
  | enterGreen started =>
    simp only [Program.run_enterGreen, Call.onGreen, bind_assoc, EStateM.bind_of_ok started, unwind, List.length_cons,
      pure_bind]
  | refuseGreen refused =>
    simp only [Program.run_enterGreen, Call.onGreen, bind_assoc, EStateM.bind_of_ok refused, pure_bind]
  | leaveGreen finished => simp only [Program.run, pure_bind, unwind, EStateM.bind_of_ok finished]
  | enterOs started =>
    simp only [Program.run_enterOs, Call.onOs, bind_assoc, EStateM.bind_of_ok started, unwind, List.length_cons,
      pure_bind]
  | refuseOs refused => simp only [Program.run_enterOs, Call.onOs, bind_assoc, EStateM.bind_of_ok refused, pure_bind]
  | leaveOs finished => simp only [Program.run, pure_bind, unwind, EStateM.bind_of_ok finished]

theorem Leads.outcome_eq (leads : Leads place moment after) : moment.outcome place = after.outcome place := by
  induction leads with
  | refl => rfl
  | tail _ step ih =>
    obtain ⟨move, step⟩ := step
    exact ih.trans step.outcome_eq

/-- A program runs to an end exactly if steps come to that end. -/
theorem run_eq_ok_iff_leads :
    program.run place 0 run = .ok () last ↔ Leads place ⟨program, [], run⟩ ⟨.done, [], last⟩ := by
  constructor
  · exact followed place program [] run last
  · intro leads
    have same : (⟨program, [], run⟩ : Moment).outcome place = .ok () last := leads.outcome_eq
    obtain ⟨_, _, done, ended⟩ := EStateM.bind_eq_ok.mp same
    cases ended
    exact done

/-- Steps come to every point of a run, however the run ends. -/
theorem leads_of_comes (comes : Program.Comes place program callers.length run rest depth run') :
    ∃ inner : List Caller, inner.length + callers.length = depth ∧
      Leads place ⟨program, callers, run⟩ ⟨rest, inner ++ callers, run'⟩ := by
  generalize level : callers.length = start at comes
  induction comes generalizing callers with
  | here => exact ⟨[], by simp, .refl⟩
  | perform done later ih =>
    subst level
    obtain ⟨inner, deep, leads⟩ := ih rfl
    exact ⟨inner, deep, (Step.perform done).leads.trans leads⟩
  | @intoGreen call body next _ _ _ _ _ _ started later ih =>
    subst level
    obtain ⟨inner, deep, leads⟩ := @ih (.green call next :: callers) rfl
    refine ⟨inner ++ [.green call next], ?_, ?_⟩
    · rw [List.length_append, List.length_singleton, Nat.add_assoc, Nat.add_comm 1]
      exact deep
    · rw [List.append_assoc]
      exact (Step.enterGreen started).leads.trans leads
  | @pastGreen call body next _ _ _ _ _ _ _ done later ih =>
    subst level
    obtain ⟨inner, deep, leads⟩ := ih rfl
    exact ⟨inner, deep, (leads_past_green (followed place body) done).trans leads⟩
  | @intoOs call body next _ _ _ _ _ _ wasOnOs started later ih =>
    subst level
    obtain ⟨inner, deep, leads⟩ := @ih (.os call wasOnOs next :: callers) rfl
    refine ⟨inner ++ [.os call wasOnOs next], ?_, ?_⟩
    · rw [List.length_append, List.length_singleton, Nat.add_assoc, Nat.add_comm 1]
      exact deep
    · rw [List.append_assoc]
      exact (Step.enterOs started).leads.trans leads
  | @pastOs call body next _ _ _ _ _ _ _ done later ih =>
    subst level
    obtain ⟨inner, deep, leads⟩ := ih rfl
    exact ⟨inner, deep, (leads_past_os (followed place body) done).trans leads⟩

end Moment
end CallStacks.Green
