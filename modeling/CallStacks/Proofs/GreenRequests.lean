import CallStacks.Proofs.GrowthLanding

/-! What requests for stack come to, exactly. One for the operating system's stack changes nothing and lands on the
highest place that there is for it. One for a segment moves the cursor on by one, and notes where the operating
system's stack was left if it is the thread's first. The steps of a run are taken apart along these lines: only
requests and calls on a green stack take segments, and all that gives them back gives back all of them. -/

namespace CallStacks.Green

theorem Request.decode_of_neg {size : Int32} (negative : size < 0) :
    decode size = .os (UInt64.ofNat (-(size.toInt + 1)).toNat) := if_pos negative

theorem Request.argBytes_decode_lt (size : Int32) : (decode size).argBytes.toNat < 0x80000000 := by
  have least := size.le_toInt
  have most := size.toInt_lt
  unfold decode
  split
  all_goals
    rw [argBytes, UInt64.toNat_ofNat_of_lt' (by change _ < 2 ^ 64; omega)]
    omega

/-- A place for a call with the given stack arguments on the operating system's stack: aligned, and with its home area
and the arguments below the stub's frame and the word that are kept free under what is in use. -/
structure OsSnapshot.Offers (os : OsSnapshot) (argBytes sp : Nat) : Prop where
  aligned : 16 ∣ sp
  clear : sp + 0x20 + argBytes + (0xe8 + 8) ≤ os.current.toNat

def Thread.Cramped (thread : Thread) (argBytes : Nat) : Prop :=
  ∀ os sp, thread.os = some os → ¬ os.Offers argBytes sp

structure OsSnapshot.Tops (os : OsSnapshot) (argBytes sp : Nat) : Prop extends os.Offers argBytes sp where
  highest : ∀ other, os.Offers argBytes other → other ≤ sp

variable {place : Nat → Word} {argBytes stubSp : Word} {caller : StackRange} {thread after : Thread}

namespace ThreadM

theorem switchToOs_tops (few : argBytes.toNat < 0x80000000) (thread : Thread) :
    Ends (fun (sp, range) after => after = thread ∧
        ∃ os, thread.os = some os ∧ range = os.range ∧ os.Tops argBytes.toNat sp.toNat)
      (fun failure after => after = thread ∧ failure = .refused .noOsStack ∧ thread.Cramped argBytes.toNat)
      (switchToOs argBytes thread) := by
  refine .step rfl ?_
  cases snapshot : thread.os with
  | none => exact ⟨rfl, rfl, fun os sp known => by simp [snapshot] at known⟩
  | some os =>
    have need : Word.add? osGap argBytes = some (osGap + argBytes) := if_pos (by change 0x110 + _ < 2 ^ 64; omega)
    have total : (osGap + argBytes).toNat = 0x110 + argBytes.toNat := (Word.add?_eq_some_iff.mp need).2
    refine inRange_step need ?_
    cases below : Word.sub? os.current (osGap + argBytes) with
    | none =>
      have low := Word.sub?_eq_none_iff.mp below
      refine ⟨rfl, rfl, fun other sp known offers => ?_⟩
      obtain rfl : os = other := Option.some.inj (snapshot.symm.trans known)
      have clear := offers.clear
      omega
    | some sp =>
      obtain ⟨room, difference⟩ := Word.sub?_eq_some_iff.mp below
      obtain ⟨aligned, lower, near⟩ := Word.alignDown_stackAlign sp
      refine ⟨rfl, os, rfl, rfl, ⟨aligned, by omega⟩, fun other offers => ?_⟩
      -- Between the place found and the end of the room there is no further multiple of sixteen.
      obtain ⟨⟨step, rfl⟩, clear⟩ := offers
      obtain ⟨own, same⟩ := aligned
      omega

/-- A request for the operating system's stack changes nothing. It lands on the highest place, and it is refused if
there is none. -/
theorem allocate_tops (few : argBytes.toNat < 0x80000000) (place : Nat → Word) (stubSp : Word) (caller : StackRange)
    (thread : Thread) :
    Ends (fun switch after => after = thread ∧ switch.argBytes = argBytes ∧ stubSp.toNat + 0x60 < UInt64.size ∧
        ∃ os, thread.os = some os ∧ switch.range = os.range ∧ os.Tops argBytes.toNat switch.sp.toNat)
      (fun failure after => after = thread ∧ (failure = .refused .noOsStack ∧ thread.Cramped argBytes.toNat ∨
        failure = .stopped .overflow ∧ UInt64.size ≤ stubSp.toNat + 0x60))
      (allocate place (.os argBytes) stubSp caller thread) := by
  refine .bind ((switchToOs_tops few thread).mono (fun _ _ holds => holds) ?_) ?_
  · rintro _ _ ⟨same, rfl, cramped⟩
    exact ⟨same, .inl ⟨rfl, cramped⟩⟩
  rintro ⟨sp, range⟩ after ⟨rfl, os, known, same, tops⟩
  by_cases low : stubSp.toNat + 0x60 < UInt64.size
  · have target : Word.add? sp StubFrame.shadowStore = some (sp + StubFrame.shadowStore) := by
      have clear := tops.clear
      have top := os.current.toNat_lt
      exact if_pos (by change _ + 0x20 < 2 ^ 64; omega)
    exact inRange_step (if_pos low) (inRange_step target ⟨rfl, rfl, low, os, known, same, tops⟩)
  · have missing : Word.add? stubSp StubFrame.argsAbove = none := if_neg low
    rw [missing]
    exact ⟨rfl, .inr ⟨rfl, Nat.le_of_not_lt low⟩⟩

theorem switchToOs_of_cramped (few : argBytes.toNat < 0x80000000) (cramped : thread.Cramped argBytes.toNat) :
    switchToOs argBytes thread = .error (.refused .noOsStack) thread := by
  have ends := switchToOs_tops few thread
  cases ran : switchToOs argBytes thread with
  | ok answer after =>
    obtain ⟨_, os, known, _, tops⟩ := ends.of_ok ran
    exact absurd tops.toOffers (cramped os _ known)
  | error failure after =>
    obtain ⟨rfl, rfl, _⟩ := ends.of_error ran
    rfl

end ThreadM

/-- The segment that a growth needs is not there, and cannot be laid out either. -/
def Thread.Unhoused (thread : Thread) (size : Word) (refusal : Refusal) : Prop :=
  thread.segments.reusable? size = none ∧ Segment.maxBlock < size.toNat + thread.settings.redZone.toNat ∧
    refusal = .invalidSegmentSize size thread.settings.redZone

structure Thread.Grown (place : Nat → Word) (thread : Thread) (argBytes stubSp : Word) (caller : StackRange)
    (after : Thread) : Prop where
  kept : after = { thread with segments := after.segments, os := after.os }
  advanced : ∃ size segment, thread.segmentSize argBytes thread.segments.current?.isNone = some size ∧
    SegmentM.advance place size thread.settings.redZone thread.segments = .ok segment after.segments
  noted : if thread.segments.current?.isNone
    then ∃ current, Word.add? stubSp StubFrame.size = some current ∧ after.os = some ⟨caller, current⟩
    else after.os = thread.os

namespace SegmentM

variable {list : SegmentList} {size redZone : Word} {segment : Segment} {refusal : Refusal}

/-- The cursor goes on by one. Either the segment there is used again, or a new one of just the size wanted is put
there. -/
theorem of_advance {after : SegmentList} (advanced : advance place size redZone list = .ok segment after) :
    after.next = list.next + 1 ∧
      (list.segments[list.next]? = some segment ∧ size ≤ segment.size ∧ after.segments = list.segments ∧
          after.allocated = list.allocated ∨
        list.reusable? size = none ∧ segment.size = size ∧ after.segments = list.segments.insertIdx list.next segment ∧
          after.allocated = list.allocated + 1) := by
  obtain ⟨found, rfl⟩ | ⟨missing, made, rfl⟩ := advance_cases advanced
  · obtain ⟨known, room⟩ := Option.filter_eq_some_iff.mp found
    exact ⟨rfl, .inl ⟨known, of_decide_eq_true room, rfl, rfl⟩⟩
  · obtain ⟨_, _, rfl⟩ := Segment.make_eq_ok_iff.mp made
    exact ⟨rfl, .inr ⟨missing, rfl, rfl, rfl⟩⟩

theorem advance_eq_error_iff {after : SegmentList} (positive : 0 < size.toNat) :
    advance place size redZone list = .error refusal after ↔
      after = list ∧ list.reusable? size = none ∧ Segment.maxBlock < size.toNat + redZone.toNat ∧
        refusal = .invalidSegmentSize size redZone := by
  have filled : size ≠ 0 := fun none => by simp [none] at positive
  constructor
  · intro refused
    obtain ⟨missing, unmade, rfl⟩ := advance_refused refused
    obtain ⟨large, rfl⟩ := Segment.make_eq_error_iff.mp unmade
    exact ⟨rfl, missing, large.resolve_left filled, rfl⟩
  · rintro ⟨rfl, missing, large, rfl⟩
    exact advance_unfit missing (Segment.make_eq_error_iff.mpr ⟨.inr large, rfl⟩)

private theorem retreat_back (list : SegmentList) :
    Ends (fun _ after => after = { list with cursor := after.cursor } ∧ after.next ≤ list.next)
      (fun _ after => after = list) (retreat list) := by
  obtain ⟨segments, cursor, allocated⟩ := list
  rcases cursor with _ | _ | index
  · exact rfl
  · exact rfl
  · cases under : segments[index]? with
    | some segment =>
      rw [retreat_pop rfl under]
      exact ⟨rfl, Nat.le_succ _⟩
    | none =>
      refine .step rfl ?_
      simp only [under]
      exact rfl

end SegmentM

theorem Thread.le_of_segmentSize {first : Bool} {size : Word} (sized : thread.segmentSize argBytes first = some size) :
    argBytes.toNat + 48 ≤ size.toNat := by
  obtain ⟨whole, summed, rfl⟩ := Option.map_eq_some_iff.mp sized
  obtain ⟨home, start, rest⟩ := Option.bind_eq_some_iff.mp summed
  have lower := (Word.add?_eq_some_iff.mp start).2
  have upper := (Word.add?_eq_some_iff.mp rest).2
  have least := UInt64.le_iff_toNat_le.mp
    (Word.le_max_right (if first then thread.settings.initialSegment else thread.settings.minSegment) whole)
  change _ = _ + 32 at lower
  change _ = _ + 16 at upper
  omega

namespace ThreadM

private theorem switchToSegment_grown (place : Nat → Word) (argBytes stubSp : Word) (caller : StackRange)
    (thread : Thread) :
    Ends (fun _ after => thread.Grown place argBytes stubSp caller after)
      (fun failure after => (∃ refusal, failure = .refused refusal ∧ after = thread ∧ ∃ size,
          thread.segmentSize argBytes thread.segments.current?.isNone = some size ∧ thread.Unhoused size refusal) ∨
        failure = .stopped .overflow)
      (switchToSegment place argBytes stubSp caller thread) := by
  refine .step rfl (inRange_bind (.inr rfl) fun size sized => segments_bind ?_ fun segment list advanced => ?_)
  · intro refusal list refused
    have room := Thread.le_of_segmentSize sized
    obtain ⟨rfl, unhoused⟩ := (SegmentM.advance_eq_error_iff (by omega)).mp refused
    exact .inl ⟨refusal, rfl, rfl, size, sized, unhoused⟩
  split
  next first =>
    refine inRange_bind (.inr rfl) fun current noted => .step rfl ?_
    refine inRange_bind (.inr rfl) fun sp _ => ⟨rfl, ⟨size, segment, sized, advanced⟩, ?_⟩
    rw [if_pos first]
    exact ⟨current, noted, rfl⟩
  next more =>
    refine inRange_bind (.inr rfl) fun sp _ => ⟨rfl, ⟨size, segment, sized, advanced⟩, ?_⟩
    rw [if_neg more]

theorem allocate_grown (place : Nat → Word) (argBytes stubSp : Word) (caller : StackRange) (thread : Thread) :
    Ends (fun _ after => thread.Grown place argBytes stubSp caller after)
      (fun failure after => (∃ refusal, failure = .refused refusal ∧ after = thread ∧ ∃ size,
          thread.segmentSize argBytes thread.segments.current?.isNone = some size ∧ thread.Unhoused size refusal) ∨
        failure = .stopped .overflow)
      (allocate place (.grow argBytes) stubSp caller thread) :=
  (switchToSegment_grown place argBytes stubSp caller thread).bind fun _ _ grown =>
    inRange_bind (.inr rfl) fun _ _ => inRange_bind (.inr rfl) fun _ _ => grown

theorem switchToSegment_of_unhoused {size : Word} {refusal : Refusal}
    (sized : thread.segmentSize argBytes thread.segments.current?.isNone = some size)
    (unhoused : thread.Unhoused size refusal) (place : Nat → Word) (stubSp : Word) (caller : StackRange) :
    switchToSegment place argBytes stubSp caller thread = .error (.refused refusal) thread := by
  have room := Thread.le_of_segmentSize sized
  have refused : SegmentM.advance place size thread.settings.redZone thread.segments = .error refusal thread.segments :=
    (SegmentM.advance_eq_error_iff (by omega)).mpr ⟨rfl, unhoused⟩
  have ranged : (inRange (thread.segmentSize argBytes thread.segments.current?.isNone) : ThreadM Word) thread =
      .ok size thread := by rw [sized]; rfl
  refine (EStateM.bind_of_ok rfl).trans ((EStateM.bind_of_ok ranged).trans (EStateM.bind_of_error ?_))
  simp only [segments, refused]

private theorem release_back (thread : Thread) :
    Ends (fun _ after => after = { thread with segments.cursor := after.segments.cursor } ∧
        after.segments.next ≤ thread.segments.next)
      (fun _ after => after = thread) (release thread) := by
  refine .step rfl ?_
  split
  next =>
    refine .discard (segments_ends ?_ ?_)
    · intro refusal list refused
      rw [(SegmentM.retreat_back thread.segments).of_error refused]
    · intro segment list moved
      obtain ⟨same, back⟩ := (SegmentM.retreat_back thread.segments).of_ok moved
      exact ⟨congrArg (fun segments => { thread with segments }) same, back⟩
  next => exact ⟨rfl, Nat.le_refl _⟩

end ThreadM

def StubFrame.spilled (memory : Memory) (stubSp : Word) : StackRange :=
  ⟨memory.word (stubSp - oldRangeBelow), memory.word (stubSp - oldRangeBelow + 8)⟩

/-- What an operation asks for: stack, for a stub with the given stack pointer, whose caller runs within the given
bounds. -/
def Operation.asks? (memory : Memory) : Operation → Option (Request × Word × StackRange)
  | .allocate request stubSp caller _ => some (request, stubSp, caller)
  | .serve size stubSp => some (Request.decode size, stubSp, StubFrame.spilled memory stubSp)
  | _ => none

def Thread.Answers (place : Nat → Word) (request : Request) (stubSp : Word) (caller : StackRange)
    (thread after : Thread) : Prop :=
  ∃ switch, ThreadM.allocate place request stubSp caller thread = .ok switch after

def Thread.Settles (place : Nat → Word) (request : Request) (stubSp : Word) (caller : StackRange)
    (thread after : Thread) : Prop :=
  after = thread ∨ thread.Answers place request stubSp caller after

theorem ThreadM.serve_answers (place : Nat → Word) (size : Int32) (stubSp : Word) (memory : Memory) (thread : Thread) :
    Ends (fun _ after => thread.Answers place (Request.decode size) stubSp (StubFrame.spilled memory stubSp) after)
      (fun failure _ => ∃ fault, failure = .stopped fault) (serve place size stubSp memory thread) := by
  refine inRange_bind ⟨_, rfl⟩ fun spilled below => ?_
  obtain ⟨_, ⟨⟩⟩ := Option.ite_none_right_eq_some.mp below
  have answered (caller : StackRange) :
      Ends (fun _ after => thread.Answers place (Request.decode size) stubSp caller after) (fun _ _ => True)
        (allocate place (Request.decode size) stubSp caller thread) := by
    cases ran : allocate place (Request.decode size) stubSp caller thread with
    | ok switch after => exact ⟨switch, ran⟩
    | error failure after => trivial
  refine .bind ((insisting_ends (answered _)).mono (fun _ _ answers => answers) ?_) fun switch after answers => ?_
  · rintro _ _ ⟨cause, rfl, _⟩
    exact ⟨_, rfl⟩
  · exact inRange_bind ⟨_, rfl⟩ fun _ _ => answers

namespace Operation
open RunM

variable {operation : Operation} {request : Request} {run : Run} {ledger : Ledger}

/-- What asks for stack is refused and leaves the thread as it is, or makes of it what the request does. -/
theorem run_of_asked (tells : ledger.Tells run.world.thread.segments)
    (asked : operation.asks? run.world.memory = some (request, stubSp, caller)) (place : Nat → Word) (depth : Nat) :
    Ends (fun _ after => run.world.thread.Settles place request stubSp caller after.world.thread)
      (fun _ _ => True) (operation.run place depth run) := by
  cases operation with
  | allocate _ _ _ copies =>
    cases asked
    have attempted : Ends (fun _ after => run.world.thread.Settles place request stubSp caller after.world.thread)
        (fun _ _ => True) (attempt (ThreadM.allocate place request stubSp caller) run) := by
      refine attempt_ends ?_
      cases ran : ThreadM.allocate place request stubSp caller run.world.thread with
      | ok switch after => exact .inr ⟨switch, ran⟩
      | error failure after =>
        rcases (ThreadM.allocate_ends tells place request stubSp caller).of_error ran with
          ⟨rfl, rfl | ⟨_, _, rfl⟩⟩ | ⟨rfl, _⟩
        · exact .inl rfl
        · exact .inl rfl
        · trivial
    refine attempted.bind fun answer after holds => ?_
    cases answer with
    | ok switch =>
      dsimp only
      split
      · exact .step rfl (.step rfl holds)
      · exact holds
    | error refusal => exact holds
  | serve size =>
    cases asked
    have attempted : Ends (fun _ after => run.world.thread.Settles place (Request.decode size) stubSp
          (StubFrame.spilled run.world.memory stubSp) after.world.thread)
        (fun _ _ => True) (attempt (ThreadM.serve place size stubSp run.world.memory) run) := by
      refine attempt_ends ((ThreadM.serve_answers place size stubSp _ _).mono (fun _ _ answers => .inr answers) ?_)
      rintro _ _ ⟨fault, rfl⟩
      trivial
    refine .step rfl (attempted.bind fun answer after holds => ?_)
    cases answer with
    | ok served => exact .step rfl holds
    | error refusal => exact holds
  | _ => cases asked

private theorem run_of_unasked (unasked : operation.asks? run.world.memory = none) (place : Nat → Word) (depth : Nat) :
    Ends (fun _ after => (operation.Frees run.world.thread ∧ after.world.thread.segments.segments = [] ∧
          after.world.thread.os = none) ∨
        after.world.thread = { run.world.thread with segments.cursor := after.world.thread.segments.cursor } ∧
          after.world.thread.segments.next ≤ run.world.thread.segments.next)
      (fun _ _ => True) (operation.run place depth run) := by
  cases operation with
  | allocate | serve => cases unasked
  | release =>
    apply tell_ends
    refine (ThreadM.release_back _).mono (fun _ _ back => .inr back) ?_
    rintro (refusal | fault) _ rfl
    · exact .inr ⟨rfl, Nat.le_refl _⟩
    · trivial
  | mustRelease =>
    apply tell_ends
    refine (ThreadM.insisting_ends (ThreadM.release_back _)).mono (fun _ _ back => .inr back) ?_
    rintro _ _ ⟨cause, rfl, _⟩
    trivial
  | free =>
    apply tell_ends
    cases idle : run.world.thread.green || run.world.thread.onOs with
    | false =>
      rw [ThreadM.free_of_idle idle]
      exact .inl ⟨idle, rfl, rfl⟩
    | true =>
      rw [ThreadM.free_of_busy idle]
      exact .inr ⟨rfl, Nat.le_refl _⟩
  | reset =>
    apply tell_ends
    rw [ThreadM.reset_run]
    exact .inl ⟨trivial, rfl, rfl⟩
  | write | read | isGreen | settings => exact .inr ⟨rfl, Nat.le_refl _⟩

end Operation

def Move.asks? (memory : Memory) : Move → Option (Request × Word × StackRange)
  | .perform operation => operation.asks? memory
  | _ => none

/-- What a step makes of the segments of a thread, and of what is noted of the operating system's stack. -/
inductive Thread.Shifts (place : Nat → Word) (memory : Memory) (thread : Thread) (move : Move) (after : Thread) : Prop
  | grown {argBytes stubSp : Word} {caller : StackRange}
      (asked : move.asks? memory = some (.grow argBytes, stubSp, caller))
      (grown : thread.Grown place argBytes stubSp caller after)
  | boarded {call : Call} (idle : ¬ thread.Busy) (boards : call.Boards place thread after)
  | emptied (frees : move.Frees thread) (empty : after.segments.segments = []) (forgotten : after.os = none)
  | stayed (settings : after.settings = thread.settings) (os : after.os = thread.os)
      (segments : after.segments = { thread.segments with cursor := after.segments.cursor })
      (back : after.segments.next ≤ thread.segments.next)

namespace Thread.Shifts

variable {memory : Memory} {move : Move}

private theorem of_back (same : after = { thread with segments.cursor := after.segments.cursor })
    (back : after.segments.next ≤ thread.segments.next) : thread.Shifts place memory move after :=
  .stayed (by rw [same]) (by rw [same]) (congrArg Thread.segments same) back

private theorem of_same (same : after = thread) : thread.Shifts place memory move after :=
  .of_back (same ▸ rfl) (same ▸ Nat.le_refl _)

private theorem of_passes (passes : thread.Passes place move after) (quiet : ∀ operation, move ≠ .perform operation) :
    thread.Shifts place memory move after := by
  cases passes with
  | performed => exact absurd rfl (quiet _)
  | refused same => exact .of_same same
  | boarded idle boards => exact .boarded idle boards
  | landed => exact .emptied trivial rfl rfl
  | left same => exact same ▸ .stayed rfl rfl rfl (Nat.le_refl _)
  | returned => exact .stayed rfl rfl rfl (Nat.le_refl _)

private theorem of_answers {request : Request} (asked : move.asks? memory = some (request, stubSp, caller))
    (answers : thread.Answers place request stubSp caller after) : thread.Shifts place memory move after := by
  obtain ⟨switch, ran⟩ := answers
  cases request with
  | os argBytes =>
    have kept : Ends (fun _ after => after = thread) (fun _ _ => True)
        (ThreadM.allocate place (.os argBytes) stubSp caller thread) := by
      refine ((ThreadM.switchToOs_ends argBytes thread).mono (fun _ _ same => same) fun _ _ _ => trivial).bind ?_
      exact fun _ _ same => ThreadM.inRange_bind trivial fun _ _ => ThreadM.inRange_bind trivial fun _ _ => same
    exact .of_same (kept.of_ok ran)
  | grow argBytes =>
    exact .grown asked ((ThreadM.allocate_grown place argBytes stubSp caller thread).of_ok ran)

end Thread.Shifts

namespace Moment

variable {settings : Settings} {memory : Memory} {program : Program} {moment next : Moment} {move : Move}

theorem Step.shifts (step : Step place move moment next) (sound : moment.Sound) :
    moment.thread.Shifts place moment.run.world.memory move next.thread := by
  obtain ⟨_, passes⟩ := step.passes sound
  cases move with
  | perform operation =>
    obtain ⟨ledger, tells⟩ := sound.run.thread.told
    cases step with
    | perform done =>
      cases asked : operation.asks? _ with
      | none =>
        rcases (Operation.run_of_unasked asked place _).of_ok done with ⟨frees, empty, forgotten⟩ | ⟨same, back⟩
        · exact .emptied frees empty forgotten
        · exact .of_back same back
      | some wish =>
        obtain ⟨request, stubSp, caller⟩ := wish
        rcases (Operation.run_of_asked tells asked place _).of_ok done with same | answers
        · exact .of_same same
        · exact .of_answers asked answers
  | _ => exact .of_passes passes nofun

end Moment
end CallStacks.Green
