import Mathlib.Data.List.InsertIdx
import CallStacks.Proofs.BalancedTransitions
import CallStacks.Proofs.GreenSteps

/-! Where a thread has left the operating system's stack. A thread notes it with its first segment, whether that comes
with a request or with a function that starts on a green stack, and forgets it with its last, whether the segments are
freed or the function returns. Nothing else touches the note: it stands for as long as there are segments. -/

namespace CallStacks.Green

theorem SegmentM.zones_of_advance {place : Nat → Word} {size redZone : Word} {list after : SegmentList}
    {segment : Segment} (advanced : advance place size redZone list = .ok segment after) :
    ∀ other ∈ after.segments, other ∈ list.segments ∨ other.redZone = redZone := by
  obtain ⟨_, rfl⟩ | ⟨_, made, rfl⟩ := advance_cases advanced
  · exact fun _ within => .inl within
  · obtain ⟨_, _, rfl⟩ := Segment.make_eq_ok_iff.mp made
    intro other within
    rcases List.eq_or_mem_of_mem_insertIdx within with rfl | within
    · exact .inr rfl
    · exact .inl within

namespace Thread

inductive Passes (place : Nat → Word) (thread : Thread) : Move → Thread → Prop
  | performed {operation : Operation} {after : Thread} (turns : thread.Turns place after)
      (held : ¬ operation.Frees thread → thread.Held → after.Held) : Passes place thread (.perform operation) after
  | refused {move : Move} {after : Thread} (same : after = thread) : Passes place thread move after
  | boarded {call : Call} {after : Thread} (idle : ¬ thread.Busy) (boards : call.Boards place thread after) :
      Passes place thread .enterGreen after
  | landed : Passes place thread .leaveGreen { thread.emptied with green := false }
  | left {after : Thread} (same : after = { thread with green := false, onOs := true }) :
      Passes place thread .enterOs after
  | returned {wasOnOs : Bool} : Passes place thread .leaveOs { thread with green := true, onOs := wasOnOs }

/-- What a thread has noted of the operating system's stack, and that its segments are as its settings say. -/
structure Noted (settings : Settings) (thread : Thread) : Prop where
  configured : thread.settings = settings
  snapshot : thread.os ≠ none ↔ thread.Held
  zones : ∀ segment ∈ thread.segments.segments, segment.redZone = settings.redZone

end Thread

def Move.Frees (thread : Thread) : Move → Prop
  | .perform operation => operation.Frees thread
  | .leaveGreen => True
  | _ => False

namespace Thread

variable {place : Nat → Word} {settings : Settings} {thread after : Thread} {move : Move}

private theorem not_held_emptied (thread : Thread) (green onOs : Bool) : ¬ Held { thread.emptied with green, onOs } :=
  fun held => held rfl

namespace Noted

theorem fresh (settings : Settings) : Noted settings { settings } :=
  ⟨rfl, ⟨fun noted => absurd rfl noted, fun held => absurd rfl held⟩, nofun⟩

private theorem emptied (noted : thread.Noted settings) (green onOs : Bool) :
    Noted settings { thread.emptied with green, onOs } :=
  ⟨noted.configured, ⟨fun os => absurd rfl os, fun held => absurd rfl held⟩, nofun⟩

private theorem advanced (noted : thread.Noted settings) {size : Word} {segment : Segment} {list : SegmentList}
    (advanced : SegmentM.advance place size thread.settings.redZone thread.segments = .ok segment list) :
    ∀ segment ∈ list.segments, segment.redZone = settings.redZone := by
  intro other within
  rcases SegmentM.zones_of_advance advanced other within with old | fresh
  · exact noted.zones other old
  · exact fresh.trans (congrArg Settings.redZone noted.configured)

private theorem served (noted : thread.Noted settings) (sound : thread.Sound) (served : thread.Served place after) :
    after.Noted settings := by
  obtain ⟨ledger, tells⟩ := sound.told
  rcases served.grown with ⟨same, os⟩ | ⟨size, segment, advanced, os⟩
  · refine ⟨served.settings.trans noted.configured, ?_, same ▸ noted.zones⟩
    rw [Held, os, same]
    exact noted.snapshot
  · refine ⟨served.settings.trans noted.configured, ?_, noted.advanced advanced⟩
    have held : after.Held := ((SegmentM.advance_ends tells place size _).of_ok advanced).2
    refine iff_of_true ?_ held
    split at os
    next => exact os
    next more =>
      have some : thread.segments.current?.isSome := by simpa [Option.isSome_iff_ne_none] using more
      exact os ▸ noted.snapshot.mpr (tells.current?_isSome_iff.mp some)

private theorem turned (noted : thread.Noted settings) (sound : thread.Sound) (turns : thread.Turns place after) :
    after.Noted settings := by
  cases turns with
  | same => exact noted
  | served served => exact noted.served sound served
  | released cursor => exact ⟨noted.configured, noted.snapshot, noted.zones⟩
  | freed => exact noted.emptied thread.green thread.onOs
  | reset => exact noted.emptied false false

private theorem passed (noted : thread.Noted settings) (sound : thread.Sound)
    (passes : thread.Passes place move after) :
    after.Noted settings := by
  cases passes with
  | performed turns => exact noted.turned sound turns
  | refused same => exact same ▸ noted
  | boarded idle boards =>
    obtain ⟨ledger, tells⟩ := sound.told
    obtain ⟨size, segment, list, advanced, rfl⟩ := boards
    have held := ((SegmentM.advance_ends tells place size _).of_ok advanced).2
    exact ⟨noted.configured, iff_of_true nofun held, noted.advanced advanced⟩
  | landed => exact noted.emptied false thread.onOs
  | left same => exact same ▸ ⟨noted.configured, noted.snapshot, noted.zones⟩
  | returned => exact ⟨noted.configured, noted.snapshot, noted.zones⟩

end Noted

theorem Served.os_eq (served : thread.Served place after) (sound : thread.Sound) (held : thread.Held) :
    after.os = thread.os := by
  obtain ⟨ledger, tells⟩ := sound.told
  rcases served.grown with ⟨_, os⟩ | ⟨_, _, _, os⟩
  · exact os
  · have busy : ¬ thread.segments.current?.isNone := by
      have more := tells.current?_isSome_iff.mpr held
      simpa [Option.isSome_iff_ne_none] using more
    rwa [if_neg busy] at os

theorem Passes.os_eq (passes : thread.Passes place move after) (sound : thread.Sound) (held : thread.Held)
    (kept : ¬ move.Frees thread) : after.os = thread.os := by
  cases passes with
  | performed turns leaves =>
    have still := leaves kept held
    cases turns with
    | same => rfl
    | served served => exact served.os_eq sound held
    | released => rfl
    | freed => exact absurd still (not_held_emptied thread thread.green thread.onOs)
    | reset => exact absurd still (not_held_emptied thread false false)
  | refused same => rw [same]
  | boarded idle => exact absurd (.inr held) idle
  | landed => exact absurd trivial kept
  | left same => rw [same]
  | returned => rfl

end Thread

def Caller.Home : Caller → Prop
  | .green _ _ => True
  | .os _ wasOnOs _ => wasOnOs = false

namespace Moment

variable {place : Nat → Word} {settings : Settings} {moment after : Moment} {move : Move}

structure Sound (moment : Moment) : Prop where
  run : moment.run.Sound
  callers : ∀ caller ∈ moment.callers, caller.Home

private theorem home_of_finishGreen {call : Call} {depth : Nat} {run run' : Run}
    (finished : call.finishGreen depth run = .ok () run') : run.world.thread.onOs = false := by
  cases away : run.world.thread.onOs with
  | false => rfl
  | true =>
    rw [Call.finishGreen_of_away away] at finished
    cases finished

theorem Step.passes (step : Step place move moment after) (sound : moment.Sound) :
    after.Sound ∧ moment.thread.Passes place move after.thread := by
  obtain ⟨inside, callers⟩ := sound
  cases step with
  | perform done =>
    obtain ⟨ledger, tells⟩ := inside.thread.told
    obtain ⟨answered, held⟩ := (Operation.run_ends tells place _ _).of_ok done
    exact ⟨⟨(inside.answered answered).1, callers⟩, .performed answered.turns held⟩
  | @enterGreen call _ next _ _ _ started =>
    obtain ⟨entered, idle, _, _, _, boards⟩ := (Call.startGreen_ends inside place _ _).of_ok started
    exact ⟨⟨entered, List.forall_mem_cons.mpr ⟨trivial, callers⟩⟩, .boarded idle boards⟩
  | refuseGreen refused =>
    obtain ⟨unmoved, same, _⟩ := (Call.startGreen_ends inside place _ _).of_ok refused
    exact ⟨⟨unmoved, callers⟩, .refused same⟩
  | @leaveGreen call _ callers run _ finished =>
    have home := home_of_finishGreen finished
    have ended := ((Call.finishGreen_ends inside home _ _).of_ok finished).1
    rw [Call.finishGreen_run home] at finished
    cases finished
    exact ⟨⟨ended, (List.forall_mem_cons.mp callers).2⟩, .landed⟩
  | @enterOs call _ next _ _ _ wasOnOs started =>
    obtain ⟨entered, green, _, was, same⟩ := (Call.startOs_ends inside _ _).of_ok started
    have home : wasOnOs = false := was.trans (inside.thread.home_of_green green)
    exact ⟨⟨entered, List.forall_mem_cons.mpr ⟨home, callers⟩⟩, .left same⟩
  | refuseOs refused =>
    obtain ⟨unmoved, same, _⟩ := (Call.startOs_ends inside _ _).of_ok refused
    exact ⟨⟨unmoved, callers⟩, .refused same⟩
  | @leaveOs call wasOnOs _ callers _ _ finished =>
    obtain ⟨rfl, others⟩ := List.forall_mem_cons.mp callers
    have ended := ((Call.finishOs_ends inside _ call).of_ok finished).1
    cases finished
    exact ⟨⟨ended, others⟩, .returned⟩

/-- Every moment of a run is sound, and its thread has noted what it should. -/
theorem Leads.noted (leads : Leads place moment after) (sound : moment.Sound) (noted : moment.thread.Noted settings) :
    after.Sound ∧ after.thread.Noted settings := by
  induction leads with
  | refl => exact ⟨sound, noted⟩
  | tail _ step ih =>
    obtain ⟨move, step⟩ := step
    obtain ⟨sound, noted⟩ := ih
    obtain ⟨later, passes⟩ := step.passes sound
    exact ⟨later, noted.passed sound.run.thread passes⟩

/-- One moment comes after another, and no step between them gives segments back. -/
def Keeps (place : Nat → Word) : Moment → Moment → Prop :=
  Relation.ReflTransGen fun moment after => ∃ move, Step place move moment after ∧ ¬ move.Frees moment.thread

theorem Keeps.os_eq {os : OsSnapshot} (keeps : Keeps place moment after) (sound : moment.Sound)
    (noted : moment.thread.os = some os) : after.Sound ∧ after.thread.os = some os := by
  induction keeps with
  | refl => exact ⟨sound, noted⟩
  | tail _ step ih =>
    obtain ⟨move, step, kept⟩ := step
    obtain ⟨sound, noted⟩ := ih
    obtain ⟨later, passes⟩ := step.passes sound
    have held := sound.run.thread.snapshot (Option.ne_none_iff_exists'.mpr ⟨os, noted⟩)
    exact ⟨later, (passes.os_eq sound.run.thread held kept).trans noted⟩

end Moment

/-- The thread has nowhere to go for a call on the operating system's stack with the given stack arguments. -/
def Thread.Short (thread : Thread) (argBytes : Nat) : Prop :=
  thread.segments.segments = [] ∨ ∃ os, thread.os = some os ∧ os.current.toNat < osGap.toNat + argBytes

namespace ThreadM

variable {settings : Settings} {thread : Thread}

private theorem switchToOs_short (noted : thread.Noted settings) (argBytes : Word) :
    Ends (fun _ _ => True) (fun failure _ => failure.fault = .fatal .noOsStack → thread.Short argBytes.toNat)
      (switchToOs argBytes thread) := by
  refine .step rfl ?_
  cases snapshot : thread.os with
  | none =>
    have none : ¬ thread.Held := mt noted.snapshot.mpr (not_not_intro snapshot)
    exact fun _ => .inl (not_not.mp none)
  | some os =>
    refine inRange_bind nofun fun need summed => ?_
    cases below : Word.sub? os.current need with
    | none =>
      have low := Word.sub?_eq_none_iff.mp below
      rw [(Word.add?_eq_some_iff.mp summed).2] at low
      exact fun _ => .inr ⟨os, snapshot, low⟩
    | some sp => trivial

private theorem allocate_short (noted : thread.Noted settings) (sound : thread.Sound) (place : Nat → Word)
    (request : Request)
    (stubSp : Word) (caller : StackRange) :
    Ends (fun _ _ => True) (fun failure _ => failure.fault = .fatal .noOsStack →
        ∃ argBytes, request = .os argBytes ∧ thread.Short argBytes.toNat)
      (allocate place request stubSp caller thread) := by
  obtain ⟨ledger, tells⟩ := sound.told
  cases request with
  | os argBytes =>
    refine .bind ((switchToOs_short noted argBytes).mono (fun _ _ held => held) ?_) fun _ _ _ => ?_
    · exact fun _ _ short refused => ⟨argBytes, rfl, short refused⟩
    · exact inRange_bind nofun fun _ _ => inRange_bind nofun fun _ _ => trivial
  | grow argBytes =>
    have switched : Ends (fun _ _ => True) (fun failure _ => failure.fault ≠ .fatal .noOsStack)
        (switchToSegment place argBytes stubSp caller thread) := by
      refine .step rfl (inRange_bind nofun fun size _ => segments_bind ?_ fun _ _ _ => ?_)
      · intro refusal list refused
        obtain ⟨rfl, _⟩ := (SegmentM.advance_ends tells place size _).of_error refused
        exact nofun
      · split
        · exact inRange_bind nofun fun _ _ => .step rfl (inRange_bind nofun fun _ _ => trivial)
        · exact inRange_bind nofun fun _ _ => trivial
    refine .bind (switched.mono (fun _ _ held => held) ?_) fun _ _ _ => ?_
    · exact fun _ _ other refused => absurd refused other
    · exact inRange_bind nofun fun _ _ => inRange_bind nofun fun _ _ => trivial

private theorem serve_short (noted : thread.Noted settings) (sound : thread.Sound) (place : Nat → Word) (size : Int32)
    (stubSp : Word) (memory : Memory) :
    Ends (fun _ _ => True) (fun failure _ => failure.fault = .fatal .noOsStack →
        ∃ argBytes, Request.decode size = .os argBytes ∧ thread.Short argBytes.toNat)
      (serve place size stubSp memory thread) := by
  refine inRange_bind nofun fun spilled _ => ?_
  refine .bind ((insisting_ends (allocate_short noted sound place _ stubSp _)).mono (fun _ _ held => held) ?_) ?_
  · rintro _ _ ⟨cause, rfl, short⟩ stopped
    exact short stopped
  · exact fun _ _ _ => inRange_bind nofun fun _ _ => trivial

private theorem enterOs_short (noted : thread.Noted settings) :
    Ends (fun _ _ => True) (fun failure _ => failure.fault = .fatal .noOsStack → thread.Short 0) (enterOs thread) := by
  refine .step rfl ?_
  split
  next => exact nofun
  next =>
    cases snapshot : thread.os with
    | none =>
      have none : ¬ thread.Held := mt noted.snapshot.mpr (not_not_intro snapshot)
      exact fun _ => .inl (not_not.mp none)
    | some os =>
      dsimp only
      cases below : Word.sub? os.current osGap with
      | none => exact fun _ => .inr ⟨os, snapshot, Word.sub?_eq_none_iff.mp below⟩
      | some sp => trivial

end ThreadM

namespace Moment

def start (settings : Settings) (memory : Memory) (program : Program) : Moment :=
  { program, run := { world := { memory, thread := { settings } } } }

theorem Sound.start {settings : Settings} {memory : Memory} {program : Program} :
    Sound (start settings memory program) :=
  ⟨.fresh settings memory, nofun⟩

theorem Leads.settled {settings : Settings} {memory : Memory} {place : Nat → Word} {program : Program} {moment : Moment}
    (reached : Leads place (start settings memory program) moment) : moment.Sound ∧ moment.thread.Noted settings :=
  reached.noted .start (Thread.Noted.fresh settings)

/-- Between the calls of a run, on whichever stack, the operating system's stack is noted exactly by a thread that has
segments. The note does not change before the segments are freed, so a call on that stack fails for want of a place
only if there are no segments or the place noted is too low for it. -/
theorem snapshots_last {settings : Settings} {memory : Memory} {place : Nat → Word} {program : Program} {moment : Moment}
    (reached : Leads place (start settings memory program) moment) :
    (moment.thread.os ≠ none ↔ moment.thread.segments.segments ≠ []) ∧
    (∀ segment ∈ moment.thread.segments.segments, segment.redZone = settings.redZone) ∧
    (∀ os later, moment.thread.os = some os → Keeps place moment later → later.thread.os = some os) ∧
    (∀ request stubSp caller last,
      ThreadM.allocate place request stubSp caller moment.thread = .error (.refused .noOsStack) last →
        ∃ argBytes, request = .os argBytes ∧ moment.thread.Short argBytes.toNat) ∧
    (∀ size stubSp memory last,
      ThreadM.serve place size stubSp memory moment.thread = .error (.stopped (.fatal .noOsStack)) last →
        ∃ argBytes, Request.decode size = .os argBytes ∧ moment.thread.Short argBytes.toNat) ∧
    ∀ last, ThreadM.enterOs moment.thread = .error (.refused .noOsStack) last → moment.thread.Short 0 := by
  obtain ⟨sound, noted⟩ := reached.settled
  have steady := sound.run.thread
  refine ⟨noted.snapshot, noted.zones, fun os later known keeps => (keeps.os_eq sound known).2, ?_, ?_, ?_⟩
  · intro request stubSp caller last refused
    exact (ThreadM.allocate_short noted steady place request stubSp caller).of_error refused rfl
  · intro size stubSp memory last stopped
    exact (ThreadM.serve_short noted steady place size stubSp memory).of_error stopped rfl
  · intro last refused
    exact (ThreadM.enterOs_short noted).of_error refused rfl

/-- A function on a green stack calls another on the operating system's stack, which asks for more of that than there
is below the place noted. -/
theorem snapshots_last_away : ∃ moment : Moment,
    Leads (fun _ => 0x100000) (start {} .blank
      (.enterGreen ⟨1, none, .native 0x9000⟩ (.enterOs ⟨2, none, .native 0x100200⟩ .done .done) .done)) moment ∧
    moment.thread.onOs = true ∧ moment.thread.os = some ⟨⟨0, 0x9000⟩, 0x9000⟩ ∧
    moment.thread.segments.segments ≠ [] ∧ moment.thread.Short 0x9000 := by
  have reached : Leads (fun _ => 0x100000) (start {} .blank
      (.enterGreen ⟨1, none, .native 0x9000⟩ (.enterOs ⟨2, none, .native 0x100200⟩ .done .done) .done)) _ :=
    .trans (Step.leads (.enterGreen rfl)) (Step.leads (.enterOs rfl))
  obtain ⟨held, _, _, wants, _⟩ := snapshots_last reached
  obtain ⟨_, same, short⟩ := wants (.os 0x9000) 0x9000 {} _ rfl
  cases same
  exact ⟨_, reached, rfl, rfl, held.mp nofun, short⟩

end Moment
end CallStacks.Green
