import CallStacks.Proofs.GreenPrograms

/-! Transitions between stacks are balanced, however they are nested. A thread that is away from its green stack
holds segments for as long as it is away, since it cannot free them; only a reset takes them, and that brings the
thread home first. So no green stack is entered while the thread is away, and none is left while it is. -/

namespace CallStacks.Green

namespace Thread

variable {place : Nat → Word} {thread after : Thread}

def Apart (thread : Thread) : Prop := ¬ (thread.green = true ∧ thread.onOs = true)

/-- A thread whose functions have all returned has nothing left. -/
structure Closed (thread : Thread) : Prop where
  segments : thread.segments.segments = []
  os : thread.os = none
  green : thread.green = false
  onOs : thread.onOs = false

def RefusesGreen (thread : Thread) (refusal : Refusal) : Prop :=
  thread.Busy ∧ refusal = .alreadyGreen ∨
    ¬ thread.Busy ∧ thread.Overlarge ∧ refusal = .invalidSegmentSize thread.firstSize thread.settings.redZone

def RefusesOs (thread : Thread) (refusal : Refusal) : Prop :=
  thread.green = false ∧ refusal = .notGreen ∨ thread.green = true ∧ thread.Stranded ∧ refusal = .noOsStack

/-- What keeps transitions balanced. A thread has segments for as long as it is away from its green stack. -/
structure Sound (thread : Thread) : Prop where
  told : ∃ ledger : Ledger, ledger.Tells thread.segments
  snapshot : thread.os ≠ none → thread.segments.segments ≠ []
  away : thread.onOs = true → thread.green = false ∧ thread.segments.segments ≠ []

namespace Sound

private theorem fresh (settings : Settings) : Sound { settings } :=
  ⟨⟨{}, Ledger.tells_fresh⟩, fun noted => absurd rfl noted, nofun⟩

private theorem apart (sound : thread.Sound) : thread.Apart := by
  rintro ⟨green, onOs⟩
  simp [(sound.away onOs).1] at green

theorem home_of_green (sound : thread.Sound) (green : thread.green = true) : thread.onOs = false := by
  cases onOs : thread.onOs with
  | false => rfl
  | true => simp [(sound.away onOs).1] at green

private theorem home_of_not_busy (sound : thread.Sound) (idle : ¬ thread.Busy) : thread.onOs = false := by
  cases onOs : thread.onOs with
  | false => rfl
  | true => exact absurd (.inr (sound.away onOs).2) idle

private theorem emptied (sound : thread.Sound) (green : Bool) {onOs : Bool} (home : onOs = false) :
    Sound { thread.emptied with green, onOs } := by
  obtain ⟨ledger, tells⟩ := sound.told
  exact ⟨⟨_, tells.clear⟩, fun noted => absurd rfl noted, fun away => absurd (home.symm.trans away) Bool.false_ne_true⟩

private theorem turned (sound : thread.Sound) (turns : thread.Turns place after) :
    after.Sound ∧ (thread.onOs = false → after.onOs = false) := by
  obtain ⟨ledger, tells⟩ := sound.told
  cases turns with
  | same => exact ⟨sound, id⟩
  | served served =>
    refine ⟨⟨?_, ?_, ?_⟩, fun home => served.onOs.trans home⟩
    · rcases served.grown with ⟨same, _⟩ | ⟨size, segment, advanced, _⟩
      · exact ⟨ledger, same ▸ tells⟩
      · exact ((SegmentM.advance_ends tells place size _).of_ok advanced).1
    · rcases served.grown with ⟨same, os⟩ | ⟨size, segment, advanced, _⟩
      · rw [same, os]
        exact sound.snapshot
      · exact fun _ => ((SegmentM.advance_ends tells place size _).of_ok advanced).2
    · rw [served.onOs, served.green]
      rcases served.grown with ⟨same, _⟩ | ⟨size, segment, advanced, _⟩
      · rw [same]
        exact sound.away
      · exact fun onOs => ⟨(sound.away onOs).1, ((SegmentM.advance_ends tells place size _).of_ok advanced).2⟩
  | released cursor told => exact ⟨⟨told, sound.snapshot, sound.away⟩, id⟩
  | freed idle =>
    have home : thread.onOs = false := (Bool.or_eq_false_iff.mp idle).2
    exact ⟨sound.emptied thread.green home, fun _ => home⟩
  | reset => exact ⟨sound.emptied false rfl, fun _ => rfl⟩

end Sound
end Thread

namespace Run

variable {place : Nat → Word} {depth : Nat} {run after : Run}

/-- Whatever was answered, it was answered to a thread on at most one of its stacks. -/
def Seemly (run : Run) : Prop := ∀ event ∈ run.trace, event.world.thread.Apart

structure Sound (run : Run) : Prop where
  thread : run.world.thread.Sound
  trace : run.Seemly

/-- The functions that have returned, each with the depth of its call. -/
def returns (run : Run) : List (Nat × Word) :=
  run.trace.toList.filterMap fun event => match event.reply with
    | .returned value => some (event.depth, value)
    | _ => none

namespace Sound

theorem fresh (settings : Settings) (memory : Memory) : Sound { world := { memory, thread := { settings } } } :=
  ⟨Thread.Sound.fresh settings, by simp [Seemly]⟩

private theorem told (sound : run.Sound) (depth : Nat) (reply : Reply) : (run.told depth reply).Sound := by
  refine ⟨sound.thread, fun event within => ?_⟩
  rcases Array.mem_push.mp within with within | rfl
  · exact sound.trace event within
  · exact sound.thread.apart

theorem answered (sound : run.Sound) (answered : run.Answered place depth after) :
    after.Sound ∧ (run.world.thread.onOs = false → after.world.thread.onOs = false) := by
  obtain ⟨thread, home⟩ := sound.thread.turned answered.turns
  obtain ⟨reply, trace⟩ := answered.answer
  refine ⟨⟨thread, fun event within => ?_⟩, home⟩
  rw [trace] at within
  rcases Array.mem_push.mp within with within | rfl
  · exact sound.trace event within
  · exact thread.apart

private theorem withThread (sound : run.Sound) {thread : Thread} (moved : thread.Sound) :
    (run.withThread thread).Sound :=
  ⟨moved, sound.trace⟩

end Sound
end Run

namespace Call
open RunM

variable {place : Nat → Word} {depth : Nat} {run : Run} {call : Call}

def boarded (call : Call) (run : Run) : Run :=
  { run with world.nativeOs := run.world.nativeOs || call.trampoline.isNative }

private theorem sound_boarded (sound : run.Sound) (call : Call) :
    (call.boarded run).Sound := ⟨sound.thread, sound.trace⟩

private theorem tellStack_ends (sound : run.Sound) (stack : Word) {failed : Fault → Run → Prop} :
    Ends (fun _ after => after.Sound ∧ after.world.thread = run.world.thread) failed (call.tellStack depth stack run) := by
  unfold tellStack
  split
  · exact ⟨sound.told depth _, rfl⟩
  · exact ⟨sound, rfl⟩

structure Aboard (thread : Thread) : Prop where
  sound : thread.Sound
  held : thread.segments.segments ≠ []
  green : thread.green = true
  home : thread.onOs = false

private theorem enterGreen_ends (sound : run.Sound) (place : Nat → Word) :
    Ends (fun answer after => after.trace = run.trace ∧ match answer with
        | .error refusal => after.world.thread = run.world.thread ∧ run.world.thread.RefusesGreen refusal
        | .ok _ => ¬ run.world.thread.Busy ∧ ¬ run.world.thread.Overlarge ∧ Aboard after.world.thread ∧ ∃ size segment list,
            SegmentM.advance place size run.world.thread.settings.redZone run.world.thread.segments = .ok segment list ∧
            after.world.thread = { run.world.thread with segments := list, green := true })
      (fun _ _ => False) (attempt (ThreadM.enterGreen place) run) := by
  obtain ⟨ledger, tells⟩ := sound.thread.told
  refine attempt_ends ((ThreadM.enterGreen_ends tells place).mono ?_ ?_)
  · rintro stack after ⟨idle, fits, ⟨size, segment, advanced⟩, same⟩
    obtain ⟨told, held⟩ := (SegmentM.advance_ends tells place size _).of_ok advanced
    have home : after.onOs = false := same ▸ sound.thread.home_of_not_busy idle
    have away : after.onOs = true → after.green = false ∧ after.segments.segments ≠ [] :=
      fun onOs => absurd (home.symm.trans onOs) Bool.false_ne_true
    exact ⟨rfl, idle, fits, ⟨⟨told, fun _ => held, away⟩, held, same ▸ rfl, home⟩, size, segment, _, advanced, same⟩
  · rintro _ after ⟨rfl, ⟨busy, rfl⟩ | ⟨idle, large, rfl⟩⟩
    · exact ⟨rfl, rfl, .inl ⟨busy, rfl⟩⟩
    · exact ⟨rfl, rfl, .inr ⟨idle, large, rfl⟩⟩

/-- What a green stack's trampoline notes of the operating system's stack. -/
def snapshot (call : Call) : OsSnapshot := ⟨⟨0, call.trampoline.savedSp⟩, call.trampoline.savedSp⟩

/-- A thread goes on a fresh green stack: it takes a segment and notes where the operating system's stack was left. -/
def Boards (place : Nat → Word) (call : Call) (thread after : Thread) : Prop :=
  ∃ size segment list, SegmentM.advance place size thread.settings.redZone thread.segments = .ok segment list ∧
    after = { thread with segments := list, os := some call.snapshot, green := true }

/-- A green stack is entered from no other stack. A call there is refused exactly to threads that have one, and to
those whose first segment would be too large. -/
theorem startGreen_ends (sound : run.Sound) (place : Nat → Word) (depth : Nat) (call : Call) :
    Ends (fun answer inner => inner.Sound ∧ match answer with
        | .error refusal => inner.world.thread = run.world.thread ∧ run.world.thread.RefusesGreen refusal
        | .ok () => ¬ run.world.thread.Busy ∧ ¬ run.world.thread.Overlarge ∧ inner.world.thread.green = true ∧
            inner.world.thread.onOs = false ∧ call.Boards place run.world.thread inner.world.thread)
      (fun _ _ => False) (call.startGreen place depth run) := by
  have entering := enterGreen_ends (sound_boarded sound call) place
  refine .step (show call.board run = .ok () (call.boarded run) from rfl) (entering.bind ?_)
  rintro (refusal | stack) after ⟨trace, holds⟩
  · obtain ⟨same, reason⟩ := holds
    have unmoved : after.Sound := ⟨same ▸ sound.thread, fun event within => sound.trace event (trace ▸ within)⟩
    exact ⟨unmoved.told depth _, same, reason⟩
  · obtain ⟨idle, fits, aboard, size, segment, list, advanced, boarded⟩ := holds
    have entered : after.Sound := ⟨aboard.sound, fun event within => sound.trace event (trace ▸ within)⟩
    refine (tellStack_ends entered stack).bind fun _ shown ⟨showing, same⟩ => ?_
    rw [← same] at aboard boarded
    let arrived := shown.withThread { shown.world.thread with os := some call.snapshot }
    have arrival : (discard (attempt (ThreadM.arriveGreen call.trampoline.savedSp)) : RunM Unit) shown = .ok () arrived := rfl
    have inside : arrived.Sound := showing.withThread ⟨showing.thread.told, fun _ => aboard.held, showing.thread.away⟩
    have boards : call.Boards place run.world.thread arrived.world.thread :=
      ⟨size, segment, list, advanced, congrArg (fun thread => { thread with os := some call.snapshot }) boarded⟩
    exact .step arrival ⟨inside.told (depth + 1) _, idle, fits, aboard.green, aboard.home, boards⟩

theorem finishGreen_run (home : run.world.thread.onOs = false) (depth : Nat) (call : Call) :
    call.finishGreen depth run =
      .ok () ((run.withThread { run.world.thread.emptied with green := false }).told depth (.returned call.returned)) := by
  have left : (discard (attempt ThreadM.leaveGreen) : RunM Unit) run =
      .ok () (run.withThread { run.world.thread.emptied with green := false }) := by
    change EStateM.map _ (attempt ThreadM.leaveGreen) run = _
    simp only [EStateM.map, attempt, ThreadM.leaveGreen_run home]
    rfl
  exact EStateM.bind_of_ok left

theorem finishGreen_of_away (away : run.world.thread.onOs = true) (depth : Nat) (call : Call) :
    call.finishGreen depth run =
      .error (.fatal .inUse) (run.withThread { run.world.thread with green := false }) := by
  have stopped : (discard (attempt ThreadM.leaveGreen) : RunM Unit) run =
      .error (.fatal .inUse) (run.withThread { run.world.thread with green := false }) := by
    change EStateM.map _ (attempt ThreadM.leaveGreen) run = _
    simp only [EStateM.map, attempt, ThreadM.leaveGreen_of_away away]
    rfl
  exact EStateM.bind_of_error stopped

theorem finishGreen_ends (sound : run.Sound) (home : run.world.thread.onOs = false) (depth : Nat) (call : Call) :
    Ends (fun _ after => after.Sound ∧ after.world.thread.Closed) (fun _ _ => False) (call.finishGreen depth run) := by
  rw [finishGreen_run home]
  exact ⟨(sound.withThread (sound.thread.emptied false home)).told depth _, rfl, rfl, rfl, home⟩

private theorem enterOs_ends (sound : run.Sound) :
    Ends (fun answer after => after.Sound ∧ match answer with
        | .error refusal => after.world.thread = run.world.thread ∧ run.world.thread.RefusesOs refusal
        | .ok (_, wasOnOs) => run.world.thread.green = true ∧ ¬ run.world.thread.Stranded ∧
            wasOnOs = run.world.thread.onOs ∧ after.world.thread = { run.world.thread with green := false, onOs := true })
      (fun _ _ => False) (attempt ThreadM.enterOs run) := by
  refine attempt_ends ((ThreadM.enterOs_ends run.world.thread).mono ?_ ?_)
  · rintro ⟨stack, wasOnOs⟩ after ⟨green, was, room, same⟩
    have held := sound.thread.snapshot (Thread.os_ne_none room)
    have gone : after.Sound := same ▸ ⟨sound.thread.told, fun _ => held, fun _ => ⟨rfl, held⟩⟩
    exact ⟨sound.withThread gone, green, room, was, same⟩
  · rintro _ after ⟨rfl, ⟨home, rfl⟩ | ⟨green, stranded, rfl⟩⟩
    · exact ⟨sound, rfl, .inl ⟨home, rfl⟩⟩
    · exact ⟨sound, rfl, .inr ⟨green, stranded, rfl⟩⟩

theorem startOs_ends (sound : run.Sound) (depth : Nat) (call : Call) :
    Ends (fun answer inner => inner.Sound ∧ match answer with
        | .error refusal => inner.world.thread = run.world.thread ∧ run.world.thread.RefusesOs refusal
        | .ok wasOnOs => run.world.thread.green = true ∧ ¬ run.world.thread.Stranded ∧
            wasOnOs = run.world.thread.onOs ∧ inner.world.thread = { run.world.thread with green := false, onOs := true })
      (fun _ _ => False) (call.startOs depth run) := by
  have entering := enterOs_ends (sound_boarded sound call)
  refine .step (show call.board run = .ok () (call.boarded run) from rfl) (entering.bind ?_)
  rintro (refusal | ⟨stack, wasOnOs⟩) after ⟨entered, holds⟩
  · exact ⟨entered.told depth _, holds⟩
  · obtain ⟨green, room, was, left⟩ := holds
    refine (tellStack_ends entered stack).bind fun _ shown ⟨showing, same⟩ => ?_
    exact ⟨showing.told (depth + 1) _, green, room, was, same.trans left⟩

theorem finishOs_ends (sound : run.Sound) (depth : Nat) (call : Call) :
    Ends (fun _ after => after.Sound ∧ after.world.thread.green = true ∧ after.world.thread.onOs = false)
      (fun _ _ => False) (call.finishOs depth false run) := by
  have back : Thread.Sound { run.world.thread with green := true, onOs := false } :=
    ⟨sound.thread.told, sound.thread.snapshot, nofun⟩
  exact .step rfl ⟨(sound.withThread back).told depth _, rfl, rfl⟩

inductive AnswersGreen (call : Call) (run : Run) : Except Refusal Word → Run → Prop
  | refused {refusal : Refusal} {after : Run} (same : after.world.thread = run.world.thread)
      (reason : run.world.thread.RefusesGreen refusal) : AnswersGreen call run (.error refusal) after
  | returned {after : Run} (idle : ¬ run.world.thread.Busy) (closed : after.world.thread.Closed) :
      AnswersGreen call run (.ok call.returned) after

inductive AnswersOs (call : Call) (run : Run) : Except Refusal Word → Run → Prop
  | refused {refusal : Refusal} {after : Run} (same : after.world.thread = run.world.thread)
      (reason : run.world.thread.RefusesOs refusal) : AnswersOs call run (.error refusal) after
  | returned {after : Run} (green : after.world.thread.green = run.world.thread.green)
      (onOs : after.world.thread.onOs = run.world.thread.onOs) : AnswersOs call run (.ok call.returned) after

theorem AnswersGreen.home {answer : Except Refusal Word} {after : Run} (answers : AnswersGreen call run answer after)
    (home : run.world.thread.onOs = false) : after.world.thread.onOs = false := by
  cases answers with
  | refused same => exact same ▸ home
  | returned idle closed => exact closed.onOs

theorem AnswersOs.home {answer : Except Refusal Word} {after : Run} (answers : AnswersOs call run answer after)
    (home : run.world.thread.onOs = false) : after.world.thread.onOs = false := by
  cases answers with
  | refused same => exact same ▸ home
  | returned green onOs => exact onOs.trans home

/-- A call on a green stack, given what its function makes of the run. -/
theorem onGreen_ends (sound : run.Sound) {body : RunM Unit} {failed : Fault → Run → Prop}
    (inside : ∀ inner, call.startGreen place depth run = .ok (.ok ()) inner → inner.Sound →
      inner.world.thread.onOs = false → Ends (fun _ left => left.Sound ∧ left.world.thread.onOs = false) failed (body inner)) :
    Ends (fun answer after => after.Sound ∧ call.AnswersGreen run answer after) failed
      (call.onGreen place depth body run) := by
  obtain ⟨answer, inner, started, entered, holds⟩ := (startGreen_ends sound place depth call).exists_ok
  refine .step started ?_
  cases answer with
  | error refusal => exact ⟨entered, .refused holds.1 holds.2⟩
  | ok =>
    obtain ⟨idle, _, _, home, _⟩ := holds
    refine (inside inner started entered home).bind fun _ left ⟨leaving, home⟩ => ?_
    obtain ⟨_, after, finished, ended, closed⟩ := (finishGreen_ends leaving home depth call).exists_ok
    exact .step finished ⟨ended, .returned idle closed⟩

private theorem onOs_ends (sound : run.Sound) {body : RunM Unit} {failed : Fault → Run → Prop}
    (inside : ∀ wasOnOs inner, call.startOs depth run = .ok (.ok wasOnOs) inner → inner.Sound →
      Ends (fun _ left => left.Sound) failed (body inner)) :
    Ends (fun answer after => after.Sound ∧ call.AnswersOs run answer after) failed (call.onOs depth body run) := by
  obtain ⟨answer, inner, started, entered, holds⟩ := (startOs_ends sound depth call).exists_ok
  refine .step started ?_
  cases answer with
  | error refusal => exact ⟨entered, .refused holds.1 holds.2⟩
  | ok wasOnOs =>
    obtain ⟨green, _, was, _⟩ := holds
    obtain rfl : wasOnOs = false := was.trans (sound.thread.home_of_green green)
    refine (inside false inner started entered).bind fun _ left leaving => ?_
    obtain ⟨_, after, finished, ended, back, home⟩ := (finishOs_ends leaving depth call).exists_ok
    exact .step finished ⟨ended, .returned (back.trans green.symm) (home.trans was)⟩

end Call

namespace Program

variable {place : Nat → Word} {program rest : Program} {depth depth' : Nat} {run run' : Run}

/-- A run has stopped in an operation of its program, and not for a stack in use. -/
structure Stopped (place : Nat → Word) (program : Program) (depth : Nat) (run : Run) (fault : Fault) (last : Run) :
    Prop where
  cause : fault ≠ .fatal .inUse
  seemly : last.Seemly
  culprit : ∃ operation next depth' run', Comes place program depth run (.perform operation next) depth' run' ∧
    operation.run place depth' run' = .error fault last

theorem Stopped.earlier {fault : Fault} {last : Run} (stopped : Stopped place rest depth' run' fault last)
    (comes : ∀ {later depth'' run''}, Comes place rest depth' run' later depth'' run'' →
      Comes place program depth run later depth'' run'') : Stopped place program depth run fault last := by
  obtain ⟨operation, next, _, _, reached, failed⟩ := stopped.culprit
  exact ⟨stopped.cause, stopped.seemly, operation, next, _, _, comes reached, failed⟩

/-- A run keeps sound, and leaves a thread at home that was at home. -/
theorem run_ends (place : Nat → Word) (program : Program) (depth : Nat) (sound : run.Sound) :
    Ends (fun _ after => after.Sound ∧ (run.world.thread.onOs = false → after.world.thread.onOs = false))
      (Stopped place program depth run) (program.run place depth run) := by
  induction program generalizing depth run with
  | done => exact ⟨sound, id⟩
  | perform operation next ih =>
    obtain ⟨ledger, tells⟩ := sound.thread.told
    have first : Ends (fun _ after => run.Answered place depth after) (Stopped place (.perform operation next) depth run)
        (operation.run place depth run) := by
      cases ran : operation.run place depth run with
      | ok _ after => exact ((operation.run_ends tells place depth).of_ok ran).1
      | error fault last =>
        obtain ⟨cause, trace⟩ := (operation.run_ends tells place depth).of_error ran
        exact ⟨cause, fun event within => sound.trace event (trace ▸ within), operation, next, _, _, .here, ran⟩
    refine first.bind_ran fun _ middle ran answered => ?_
    obtain ⟨going, home⟩ := sound.answered answered
    refine (ih depth going).mono (fun _ _ ⟨ended, kept⟩ => ⟨ended, kept ∘ home⟩) fun _ _ stopped => ?_
    exact stopped.earlier (.perform ran)
  | enterGreen call body next inside after =>
    have calling : Ends _ (Stopped place (.enterGreen call body next) depth run)
        (call.onGreen place depth (body.run place (depth + 1)) run) :=
      Call.onGreen_ends sound fun inner started entered home =>
        (inside (depth + 1) entered).mono (fun _ left ⟨leaving, kept⟩ => ⟨leaving, kept home⟩)
          fun _ _ stopped => stopped.earlier (.intoGreen started)
    rw [run_enterGreen]
    refine calling.bind_ran fun answer between ran ⟨going, answers⟩ => ?_
    refine (after depth going).mono (fun _ _ ⟨ended, kept⟩ => ⟨ended, kept ∘ answers.home⟩) fun _ _ stopped => ?_
    exact stopped.earlier (.pastGreen ran)
  | enterOs call body next inside after =>
    have calling : Ends _ (Stopped place (.enterOs call body next) depth run)
        (call.onOs depth (body.run place (depth + 1)) run) :=
      Call.onOs_ends sound fun wasOnOs inner started entered =>
        (inside (depth + 1) entered).mono (fun _ left ⟨leaving, _⟩ => leaving)
          fun _ _ stopped => stopped.earlier (.intoOs started)
    rw [run_enterOs]
    refine calling.bind_ran fun answer between ran ⟨going, answers⟩ => ?_
    refine (after depth going).mono (fun _ _ ⟨ended, kept⟩ => ⟨ended, kept ∘ answers.home⟩) fun _ _ stopped => ?_
    exact stopped.earlier (.pastOs ran)

/-- A call on a green stack runs a program there. -/
theorem onGreen_ends (sound : run.Sound) (place : Nat → Word) (depth : Nat) (call : Call) (body : Program) :
    Ends (fun answer after => after.Sound ∧ call.AnswersGreen run answer after) (fun _ _ => True)
      (call.onGreen place depth (body.run place (depth + 1)) run) :=
  Call.onGreen_ends sound fun _ _ entered home =>
    (run_ends place body (depth + 1) entered).mono (fun _ _ ⟨leaving, kept⟩ => ⟨leaving, kept home⟩) fun _ _ _ => trivial

private theorem onOs_ends (sound : run.Sound) (place : Nat → Word) (depth : Nat) (call : Call) (body : Program) :
    Ends (fun answer after => after.Sound ∧ call.AnswersOs run answer after) (fun _ _ => True)
      (call.onOs depth (body.run place (depth + 1)) run) :=
  Call.onOs_ends sound fun _ _ _ entered =>
    (run_ends place body (depth + 1) entered).mono (fun _ _ ⟨leaving, _⟩ => leaving) fun _ _ _ => trivial

theorem Comes.sound (comes : Comes place program depth run rest depth' run') (sound : run.Sound) : run'.Sound := by
  induction comes with
  | here => exact sound
  | @perform operation _ _ depth _ _ _ _ done _ ih =>
    obtain ⟨ledger, tells⟩ := sound.thread.told
    exact ih (sound.answered ((operation.run_ends tells place depth).of_ok done).1).1
  | @intoGreen call _ _ _ depth _ _ _ _ started _ ih =>
    exact ih ((Call.startGreen_ends sound place depth call).of_ok started).1
  | @pastGreen call body _ _ depth _ _ _ _ _ done _ ih => exact ih ((onGreen_ends sound place depth call body).of_ok done).1
  | @intoOs call _ _ _ depth _ _ _ _ _ started _ ih => exact ih ((Call.startOs_ends sound depth call).of_ok started).1
  | @pastOs call body _ _ depth _ _ _ _ _ done _ ih => exact ih ((onOs_ends sound place depth call body).of_ok done).1

/-- What a transition comes to at a point of a run. A call on a green stack is refused to a thread that runs on
one or has a segment, and to one whose first segment would be too large. Otherwise the function is run; if it
returns, so does the call, and nothing is left. A call on the operating system's stack is refused off green
stacks, and where there is no room left for it. Otherwise the function is run; if it returns, so does the call, and
the thread is where it was. -/
def Balanced (place : Nat → Word) : Program → Nat → Run → Prop
  | .enterGreen call body _, depth, run =>
    let calling := call.onGreen place depth (body.run place (depth + 1)) run
    (run.world.thread.Busy →
      ∃ after, calling = .ok (.error .alreadyGreen) after ∧ after.world.thread = run.world.thread) ∧
    (¬ run.world.thread.Busy → run.world.thread.Overlarge →
      ∃ after, after.world.thread = run.world.thread ∧ calling =
        .ok (.error (.invalidSegmentSize run.world.thread.firstSize run.world.thread.settings.redZone)) after) ∧
    (¬ run.world.thread.Busy → ¬ run.world.thread.Overlarge →
      ∃ inner, call.startGreen place depth run = .ok (.ok ()) inner ∧
        Ends (fun _ _ => ∃ after, calling = .ok (.ok call.returned) after ∧ after.world.thread.Closed)
          (fun fault last => calling = .error fault last) (body.run place (depth + 1) inner))
  | .enterOs call body _, depth, run =>
    let calling := call.onOs depth (body.run place (depth + 1)) run
    (run.world.thread.green = false →
      ∃ after, calling = .ok (.error .notGreen) after ∧ after.world.thread = run.world.thread) ∧
    (run.world.thread.green = true → run.world.thread.Stranded →
      ∃ after, calling = .ok (.error .noOsStack) after ∧ after.world.thread = run.world.thread) ∧
    (run.world.thread.green = true → ¬ run.world.thread.Stranded →
      ∃ inner, call.startOs depth run = .ok (.ok false) inner ∧
        Ends (fun _ _ => ∃ after, calling = .ok (.ok call.returned) after)
          (fun fault last => calling = .error fault last) (body.run place (depth + 1) inner)) ∧
    ∀ value after, calling = .ok (.ok value) after →
      after.world.thread.green = run.world.thread.green ∧ after.world.thread.onOs = run.world.thread.onOs
  | _, _, _ => True

private theorem balanced_green (sound : run.Sound) (place : Nat → Word) (depth : Nat) (call : Call)
    (body next : Program) :
    Balanced place (.enterGreen call body next) depth run := by
  obtain ⟨answer, inner, started, entered, holds⟩ := (Call.startGreen_ends sound place depth call).exists_ok
  cases answer with
  | error refusal =>
    obtain ⟨same, ⟨busy, rfl⟩ | ⟨idle, large, rfl⟩⟩ := holds
    · exact ⟨fun _ => ⟨inner, EStateM.bind_of_ok started, same⟩, fun idle => absurd busy idle,
        fun idle => absurd busy idle⟩
    · exact ⟨fun busy => absurd busy idle, fun _ _ => ⟨inner, same, EStateM.bind_of_ok started⟩,
        fun _ fits => absurd large fits⟩
  | ok =>
    obtain ⟨idle, fits, _, home, _⟩ := holds
    refine ⟨fun busy => absurd busy idle, fun _ large => absurd large fits, fun _ _ => ⟨inner, started, ?_⟩⟩
    have ends := run_ends place body (depth + 1) entered
    cases ran : body.run place (depth + 1) inner with
    | ok _ left =>
      obtain ⟨leaving, kept⟩ := ends.of_ok ran
      obtain ⟨_, after, finished, _, closed⟩ := (Call.finishGreen_ends leaving (kept home) depth call).exists_ok
      exact ⟨after, (EStateM.bind_of_ok started).trans
        ((EStateM.bind_of_ok ran).trans (EStateM.bind_of_ok finished)), closed⟩
    | error fault last => exact (EStateM.bind_of_ok started).trans (EStateM.bind_of_error ran)

private theorem balanced_os (sound : run.Sound) (place : Nat → Word) (depth : Nat) (call : Call) (body next : Program) :
    Balanced place (.enterOs call body next) depth run := by
  have back : ∀ value after, call.onOs depth (body.run place (depth + 1)) run = .ok (.ok value) after →
      after.world.thread.green = run.world.thread.green ∧ after.world.thread.onOs = run.world.thread.onOs := by
    intro value after done
    obtain ⟨_, answers⟩ := (onOs_ends sound place depth call body).of_ok done
    cases answers with
    | returned green onOs => exact ⟨green, onOs⟩
  obtain ⟨answer, inner, started, entered, holds⟩ := (Call.startOs_ends sound depth call).exists_ok
  cases answer with
  | error refusal =>
    obtain ⟨same, ⟨off, rfl⟩ | ⟨green, stranded, rfl⟩⟩ := holds
    · have away : run.world.thread.green ≠ true := by simp [off]
      exact ⟨fun _ => ⟨inner, EStateM.bind_of_ok started, same⟩, fun green => absurd green away,
        fun green => absurd green away, back⟩
    · have aboard : run.world.thread.green ≠ false := by simp [green]
      exact ⟨fun off => absurd off aboard, fun _ _ => ⟨inner, EStateM.bind_of_ok started, same⟩,
        fun _ room => absurd stranded room, back⟩
  | ok wasOnOs =>
    obtain ⟨green, room, was, _⟩ := holds
    obtain rfl : wasOnOs = false := was.trans (sound.thread.home_of_green green)
    have aboard : run.world.thread.green ≠ false := by simp [green]
    refine ⟨fun off => absurd off aboard, fun _ stranded => absurd stranded room, fun _ _ => ⟨inner, started, ?_⟩, back⟩
    cases ran : body.run place (depth + 1) inner with
    | ok _ left =>
      have leaving := ((run_ends place body (depth + 1) entered).of_ok ran).1
      obtain ⟨_, after, finished, _⟩ := (Call.finishOs_ends leaving depth call).exists_ok
      exact ⟨after, (EStateM.bind_of_ok started).trans ((EStateM.bind_of_ok ran).trans (EStateM.bind_of_ok finished))⟩
    | error fault last => exact (EStateM.bind_of_ok started).trans (EStateM.bind_of_error ran)

/-- However transitions are nested, they balance. No one is ever told of a thread that is on a green stack and away
from it; a run stops in nothing but its own operations, and never for a stack in use. -/
theorem transitions_balance (settings : Settings) (memory : Memory) (place : Nat → Word) (program : Program) :
    let start : Run := { world := { memory, thread := { settings } } }
    Ends (fun _ last => last.Seemly ∧ last.world.thread.Apart) (Stopped place program 0 start) (program.run place 0 start) ∧
    ∀ rest depth run, Comes place program 0 start rest depth run →
      run.Seemly ∧ run.world.thread.Apart ∧ Balanced place rest depth run := by
  intro start
  have sound : start.Sound := .fresh settings memory
  refine ⟨(run_ends place program 0 sound).mono (fun _ _ ⟨ended, _⟩ => ⟨ended.trace, ended.thread.apart⟩)
    fun _ _ stopped => stopped, fun rest depth run comes => ?_⟩
  have here := comes.sound sound
  refine ⟨here.trace, here.thread.apart, ?_⟩
  cases rest with
  | done => trivial
  | perform => trivial
  | enterGreen call body next => exact balanced_green here place depth call body next
  | enterOs call body next => exact balanced_os here place depth call body next

/-- A function on a green stack that gives it up has left a thread on which another one can start. -/
private theorem startGreen_reset {call : Call} (sound : run.Sound) (fits : ¬ run.world.thread.Overlarge)
    (started : call.startGreen place depth run = .ok (.ok ()) run') :
    ∃ vacated, Operation.reset.run place (depth + 1) run' = .ok () vacated ∧
      ¬ vacated.world.thread.Busy ∧ ¬ vacated.world.thread.Overlarge := by
  obtain ⟨_, _, _, _, _, _, _, _, _, boards⟩ := (Call.startGreen_ends sound place depth call).of_ok started
  have settings : run'.world.thread.settings = run.world.thread.settings := by rw [boards]
  refine ⟨_, rfl, by simp [Thread.Busy], ?_⟩
  change ¬ Segment.maxBlock <
    (max run'.world.thread.settings.initialSegment 0x30).toNat + run'.world.thread.settings.redZone.toNat
  rw [settings]
  exact fits

def innermost : Program := .enterOs ⟨3, none, .recording 0x7000⟩ .done .done

def inner : Program := .enterGreen ⟨2, none, .recording 0x8000⟩ innermost .done

/-- A function on a green stack gives it up, and calls that function on another one. -/
def nested : Program := .enterGreen ⟨1, none, .recording 0x9000⟩ (.perform .reset inner) .done

/-- Three functions run, each called by the one before it, the second on a green stack of its own; all of them
return. -/
theorem transitions_balance_nested :
    let place : Nat → Word := fun _ => 0x100000
    let start : Run := { world := { memory := .blank, thread := { settings := {} } } }
    (∃ last, nested.run place 0 start = .ok () last ∧ last.returns = [(2, 4), (1, 3), (0, 2)]) ∧
    ∃ run entered, Comes place nested 0 start inner 1 run ∧ run.Seemly ∧
      Call.startGreen place 1 ⟨2, none, .recording 0x8000⟩ run = .ok (.ok ()) entered := by
  intro place start
  obtain ⟨-, points⟩ := transitions_balance {} .blank place nested
  have returned : (match nested.run place 0 start with
      | .ok () last => some last.returns
      | .error _ _ => none) = some [(2, 4), (1, 3), (0, 2)] := by decide +kernel
  constructor
  · cases ran : nested.run place 0 start with
    | ok _ last =>
      rw [ran] at returned
      exact ⟨last, rfl, Option.some.inj returned⟩
    | error fault last =>
      rw [ran] at returned
      cases returned
  · obtain ⟨outer, started, _⟩ := (points nested 0 start .here).2.2.2.2 (by decide) (by decide)
    obtain ⟨vacated, reset, idle, fits⟩ := startGreen_reset (.fresh {} .blank) (by decide) started
    have comes : Comes place nested 0 start inner 1 vacated := .intoGreen started (.perform reset .here)
    obtain ⟨seemly, _, _, _, starts⟩ := points inner 1 vacated comes
    obtain ⟨entered, started', _⟩ := starts idle fits
    exact ⟨vacated, entered, comes, seemly, started'⟩

end Program
end CallStacks.Green
