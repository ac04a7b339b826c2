import CallStacks.Proofs.GreenRuns

/-! Programs on green stacks, taken apart. A call on another stack starts, runs its function and finishes; the
points that a run comes to are those where a part of the program is about to run. -/

namespace CallStacks.Green

inductive Thread.Turns (place : Nat → Word) (thread : Thread) : Thread → Prop
  | same : Turns place thread thread
  | served {after : Thread} (served : thread.Served place after) : Turns place thread after
  | released (cursor : Option Nat) (told : ∃ next : Ledger, next.Tells { thread.segments with cursor }) :
      Turns place thread { thread with segments.cursor := cursor }
  | freed (idle : (thread.green || thread.onOs) = false) : Turns place thread thread.emptied
  | reset : Turns place thread { thread.emptied with green := false, onOs := false }

namespace Run

def withMemory (run : Run) (memory : Memory) : Run := { run with world := { run.world with memory } }

def withThread (run : Run) (thread : Thread) : Run := { run with world := { run.world with thread } }

def told (run : Run) (depth : Nat) (reply : Reply) : Run :=
  { run with trace := run.trace.push ⟨depth, reply, run.world⟩ }

end Run

namespace RunM

variable {α : Type} {run : Run} {done : Except Refusal α → Run → Prop} {failed : Fault → Run → Prop}

theorem attempt_ends {operation : ThreadM α}
    (ends : Ends (fun answer thread => done (.ok answer) (run.withThread thread))
      (fun failure thread => match failure with
        | .refused refusal => done (.error refusal) (run.withThread thread)
        | .stopped fault => failed fault (run.withThread thread)) (operation run.world.thread)) :
    Ends done failed (attempt operation run) := by
  unfold attempt
  cases ran : operation run.world.thread with
  | ok answer thread => exact ends.of_ok ran
  | error failure thread =>
    have broken := ends.of_error ran
    cases failure with
    | refused refusal => exact broken
    | stopped fault => exact broken

theorem tell_ends {operation : ThreadM α} {answered : Unit → Run → Prop} {depth : Nat} {reply : α → Reply}
    (ends : Ends (fun answer thread => answered () ((run.withThread thread).told depth (reply answer)))
      (fun failure thread => match failure with
        | .refused refusal => answered () ((run.withThread thread).told depth (.refused refusal))
        | .stopped fault => failed fault (run.withThread thread)) (operation run.world.thread)) :
    Ends answered failed (tell depth operation reply run) := by
  unfold tell
  refine (attempt_ends ?_).bind fun _ _ holds => holds
  exact ends

end RunM

structure Run.Answered (place : Nat → Word) (depth : Nat) (run after : Run) : Prop where
  turns : run.world.thread.Turns place after.world.thread
  answer : ∃ reply, after.trace = run.trace.push ⟨depth, reply, after.world⟩

theorem Run.Answered.told {place : Nat → Word} {depth : Nat} {run middle : Run}
    (turns : run.world.thread.Turns place middle.world.thread) (trace : middle.trace = run.trace) (reply : Reply) :
    run.Answered place depth (middle.told depth reply) :=
  ⟨turns, reply, congrArg (·.push ⟨depth, reply, middle.world⟩) trace⟩

open RunM

/-- An operation gives the segments of a thread back. Freeing is refused to a thread that runs on them. -/
def Operation.Frees (thread : Thread) : Operation → Prop
  | .free => (thread.green || thread.onOs) = false
  | .reset => True
  | _ => False

/-- An operation answers, or it stops the run. Unless it frees them, a thread that has segments has some afterwards. -/
theorem Operation.run_ends {run : Run} {ledger : Ledger} (tells : ledger.Tells run.world.thread.segments)
    (place : Nat → Word) (depth : Nat) (operation : Operation) :
    Ends (fun _ after => run.Answered place depth after ∧
        (¬ operation.Frees run.world.thread → run.world.thread.Held → after.world.thread.Held))
      (fun fault after => fault ≠ .fatal .inUse ∧ after.trace = run.trace) (operation.run place depth run) := by
  let turned {α : Type} (_ : α) (after : Run) := run.world.thread.Turns place after.world.thread ∧
    (run.world.thread.Held → after.world.thread.Held) ∧ after.trace = run.trace
  let broken (fault : Fault) (after : Run) := fault ≠ .fatal .inUse ∧ after.trace = run.trace
  cases operation with
  | allocate request stubSp caller copies =>
    have attempted : Ends turned broken (attempt (ThreadM.allocate place request stubSp caller) run) := by
      refine attempt_ends ((ThreadM.allocate_ends tells place request stubSp caller).mono ?_ ?_)
      · exact fun _ after served => ⟨.served served, served.held tells, rfl⟩
      · rintro _ after (⟨rfl, rfl | ⟨_, _, rfl⟩⟩ | ⟨rfl, _⟩)
        · exact ⟨.same, id, rfl⟩
        · exact ⟨.same, id, rfl⟩
        · exact ⟨nofun, rfl⟩
    refine attempted.bind fun answer after ⟨turns, held, trace⟩ => ?_
    cases answer with
    | ok switch =>
      dsimp only
      split
      · let copied := after.withMemory (switch.copyArguments after.world.memory)
        exact .step rfl (.step rfl ⟨@Run.Answered.told place depth run copied turns trace _, fun _ => held⟩)
      · exact ⟨.told turns trace _, fun _ => held⟩
    | error refusal => exact ⟨.told turns trace _, fun _ => held⟩
  | serve size stubSp =>
    have attempted : Ends turned broken (attempt (ThreadM.serve place size stubSp run.world.memory) run) := by
      refine attempt_ends ((ThreadM.serve_ends tells place size stubSp _).mono ?_ ?_)
      · exact fun _ after served => ⟨.served served, served.held tells, rfl⟩
      · rintro _ after ⟨fault, rfl, other, _⟩
        exact ⟨other, rfl⟩
    refine .step rfl (attempted.bind fun answer after ⟨turns, held, trace⟩ => ?_)
    cases answer with
    | ok served =>
      let written := after.withMemory served.2
      exact .step rfl ⟨@Run.Answered.told place depth run written turns trace _, fun _ => held⟩
    | error refusal => exact ⟨.told turns trace _, fun _ => held⟩
  | release =>
    apply tell_ends
    refine (ThreadM.release_ends tells).mono ?_ ?_
    · rintro _ after ⟨told, same⟩
      exact ⟨⟨same ▸ .released _ (same ▸ told), _, rfl⟩, fun _ held => same ▸ held⟩
    · rintro _ after ⟨rfl, rfl⟩
      exact ⟨⟨.same, _, rfl⟩, fun _ => id⟩
  | mustRelease =>
    apply tell_ends
    refine (ThreadM.insisting_ends (ThreadM.release_ends tells)).mono ?_ ?_
    · rintro _ after ⟨told, same⟩
      exact ⟨⟨same ▸ .released _ (same ▸ told), _, rfl⟩, fun _ held => same ▸ held⟩
    · rintro _ after ⟨_, rfl, rfl, rfl⟩
      exact ⟨nofun, rfl⟩
  | free =>
    apply tell_ends
    cases idle : run.world.thread.green || run.world.thread.onOs with
    | false =>
      rw [ThreadM.free_of_idle idle]
      exact ⟨⟨.freed idle, _, rfl⟩, fun busy => absurd idle busy⟩
    | true =>
      rw [ThreadM.free_of_busy idle]
      exact ⟨⟨.same, _, rfl⟩, fun _ => id⟩
  | reset =>
    apply tell_ends
    rw [ThreadM.reset_run]
    exact ⟨⟨.reset, _, rfl⟩, fun kept => absurd trivial kept⟩
  | write start words => exact ⟨⟨.same, _, rfl⟩, fun _ => id⟩
  | read start count => exact ⟨⟨.same, _, rfl⟩, fun _ => id⟩
  | isGreen => exact ⟨⟨.same, _, rfl⟩, fun _ => id⟩
  | settings => exact ⟨⟨.same, _, rfl⟩, fun _ => id⟩

namespace Call

/-- A call on a green stack, up to the function's first step. -/
def startGreen (place : Nat → Word) (depth : Nat) (call : Call) : RunM (Except Refusal Unit) := do
  call.board
  match ← attempt (ThreadM.enterGreen place) with
  | .error refusal =>
    answer depth (.refused refusal)
    return .error refusal
  | .ok stack =>
    call.tellStack depth stack
    discard (attempt (ThreadM.arriveGreen call.trampoline.savedSp))
    call.tellEntry depth stack
    return .ok ()

def finishGreen (depth : Nat) (call : Call) : RunM Unit := do
  discard (attempt ThreadM.leaveGreen)
  answer depth (.returned call.returned)

/-- A call on a green stack. Gives what the function returns. -/
def onGreen (place : Nat → Word) (depth : Nat) (call : Call) (body : RunM Unit) : RunM (Except Refusal Word) := do
  match ← call.startGreen place depth with
  | .error refusal => return .error refusal
  | .ok () =>
    body
    call.finishGreen depth
    return .ok call.returned

def startOs (depth : Nat) (call : Call) : RunM (Except Refusal Bool) := do
  call.board
  match ← attempt ThreadM.enterOs with
  | .error refusal =>
    answer depth (.refused refusal)
    return .error refusal
  | .ok (stack, wasOnOs) =>
    call.tellStack depth stack
    call.tellEntry depth stack
    return .ok wasOnOs

def finishOs (depth : Nat) (call : Call) (wasOnOs : Bool) : RunM Unit := do
  discard (attempt (ThreadM.leaveOs wasOnOs))
  answer depth (.returned call.returned)

def onOs (depth : Nat) (call : Call) (body : RunM Unit) : RunM (Except Refusal Word) := do
  match ← call.startOs depth with
  | .error refusal => return .error refusal
  | .ok wasOnOs =>
    body
    call.finishOs depth wasOnOs
    return .ok call.returned

end Call

namespace Program

theorem run_enterGreen (place : Nat → Word) (call : Call) (body next : Program) (depth : Nat) :
    (enterGreen call body next).run place depth =
      call.onGreen place depth (body.run place (depth + 1)) >>= fun _ => next.run place depth := by
  simp only [run, Call.onGreen, Call.startGreen, Call.finishGreen, bind_assoc]
  congr 1
  funext _
  congr 1
  funext entered
  cases entered with
  | error refusal => simp only [bind_assoc, pure_bind]
  | ok stack => simp only [bind_assoc, pure_bind]

theorem run_enterOs (place : Nat → Word) (call : Call) (body next : Program) (depth : Nat) :
    (enterOs call body next).run place depth =
      call.onOs depth (body.run place (depth + 1)) >>= fun _ => next.run place depth := by
  simp only [run, Call.onOs, Call.startOs, Call.finishOs, bind_assoc]
  congr 1
  funext _
  congr 1
  funext entered
  cases entered with
  | error refusal => simp only [bind_assoc, pure_bind]
  | ok entered => simp only [bind_assoc, pure_bind]

/-- A run of a program comes to a point where part of it is about to run. -/
inductive Comes (place : Nat → Word) : Program → Nat → Run → Program → Nat → Run → Prop
  | here {program : Program} {depth : Nat} {run : Run} : Comes place program depth run program depth run
  | perform {operation : Operation} {next rest : Program} {depth depth' : Nat} {run middle run' : Run}
      (done : operation.run place depth run = .ok () middle) (later : Comes place next depth middle rest depth' run') :
      Comes place (.perform operation next) depth run rest depth' run'
  | intoGreen {call : Call} {body next rest : Program} {depth depth' : Nat} {run inner run' : Run}
      (started : call.startGreen place depth run = .ok (.ok ()) inner)
      (later : Comes place body (depth + 1) inner rest depth' run') :
      Comes place (.enterGreen call body next) depth run rest depth' run'
  | pastGreen {call : Call} {body next rest : Program} {depth depth' : Nat} {run after run' : Run}
      {answer : Except Refusal Word} (done : call.onGreen place depth (body.run place (depth + 1)) run = .ok answer after)
      (later : Comes place next depth after rest depth' run') :
      Comes place (.enterGreen call body next) depth run rest depth' run'
  | intoOs {call : Call} {body next rest : Program} {depth depth' : Nat} {run inner run' : Run} {wasOnOs : Bool}
      (started : call.startOs depth run = .ok (.ok wasOnOs) inner)
      (later : Comes place body (depth + 1) inner rest depth' run') :
      Comes place (.enterOs call body next) depth run rest depth' run'
  | pastOs {call : Call} {body next rest : Program} {depth depth' : Nat} {run after run' : Run}
      {answer : Except Refusal Word} (done : call.onOs depth (body.run place (depth + 1)) run = .ok answer after)
      (later : Comes place next depth after rest depth' run') :
      Comes place (.enterOs call body next) depth run rest depth' run'

end Program
end CallStacks.Green
