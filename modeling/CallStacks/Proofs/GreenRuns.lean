import CallStacks.Green.Program
import CallStacks.Proofs.SegmentRecycling
import CallStacks.Proofs.StatefulRuns

/-! How operations on a green thread run. A run ends in an answer or in a failure, and both come with a state;
what is known of the end of a composed operation is put together from what is known of the ends of its parts. -/

namespace CallStacks.Green

section
variable {ε σ α β : Type} {done kept : α → σ → Prop} {failed lost : ε → σ → Prop}

/-- What holds at the end of a run: of its answer and the state with it, or of its failure and the state
with that. -/
def Ends (done : α → σ → Prop) (failed : ε → σ → Prop) : EStateM.Result ε σ α → Prop
  | .ok answer state => done answer state
  | .error failure state => failed failure state

namespace Ends

theorem mono {result : EStateM.Result ε σ α} (ends : Ends kept lost result)
    (answered : ∀ answer state, kept answer state → done answer state)
    (broken : ∀ failure state, lost failure state → failed failure state) : Ends done failed result := by
  cases result with
  | ok answer state => exact answered answer state ends
  | error failure state => exact broken failure state ends

theorem of_ok {operation : EStateM ε σ α} {state after : σ} {answer : α} (ends : Ends done failed (operation state))
    (ran : operation state = .ok answer after) : done answer after := by
  rw [ran] at ends
  exact ends

theorem of_error {operation : EStateM ε σ α} {state after : σ} {failure : ε} (ends : Ends done failed (operation state))
    (ran : operation state = .error failure after) : failed failure after := by
  rw [ran] at ends
  exact ends

theorem exists_ok {result : EStateM.Result ε σ α} (ends : Ends done (fun _ _ => False) result) :
    ∃ answer state, result = .ok answer state ∧ done answer state := by
  cases result with
  | ok answer state => exact ⟨answer, state, rfl, ends⟩
  | error failure state => exact ends.elim

theorem bind_ran {first : EStateM ε σ β} {next : β → EStateM ε σ α} {state : σ} {middle : β → σ → Prop}
    (before : Ends middle failed (first state))
    (after : ∀ value between, first state = .ok value between → middle value between →
      Ends done failed (next value between)) : Ends done failed ((first >>= next) state) := by
  cases ran : first state with
  | ok value between =>
    rw [EStateM.bind_of_ok ran]
    exact after value between ran (before.of_ok ran)
  | error failure last =>
    rw [EStateM.bind_of_error ran]
    exact before.of_error ran

/-- A second part starts where the first has ended. -/
theorem bind {first : EStateM ε σ β} {next : β → EStateM ε σ α} {state : σ} {middle : β → σ → Prop}
    (before : Ends middle failed (first state))
    (after : ∀ value between, middle value between → Ends done failed (next value between)) :
    Ends done failed ((first >>= next) state) :=
  before.bind_ran fun value between _ => after value between

theorem step {first : EStateM ε σ β} {next : β → EStateM ε σ α} {state between : σ} {value : β}
    (ran : first state = .ok value between) (ends : Ends done failed (next value between)) :
    Ends done failed ((first >>= next) state) := by
  rw [EStateM.bind_of_ok ran]
  exact ends

theorem discard {answered : Unit → σ → Prop} {operation : EStateM ε σ α} {state : σ}
    (ends : Ends (fun _ => answered ()) failed (operation state)) :
    Ends answered failed ((Functor.discard operation : EStateM ε σ PUnit) state) := by
  change Ends answered failed (EStateM.map (fun _ => ()) operation state)
  unfold EStateM.map
  cases ran : operation state with
  | ok value between => exact ends.of_ok ran
  | error failure between => exact ends.of_error ran

end Ends
end

namespace SegmentM

variable {place : Nat → Word} {list : SegmentList} {ledger : Ledger}

theorem advance_ends (tells : ledger.Tells list) (place : Nat → Word) (size redZone : Word) :
    Ends (fun _ after => (∃ next : Ledger, next.Tells after) ∧ after.segments ≠ [])
      (fun refusal after => refusal = .invalidSegmentSize size redZone ∧ after = list)
      (advance place size redZone list) := by
  obtain ⟨next, entry, later, unchanged⟩ := tells.turn place (.advance size redZone)
  cases ran : advance place size redZone list with
  | ok segment after =>
    rw [SegmentMove.turn_advance_ok ran] at entry later
    obtain ⟨number, _, _, _, pushed, _⟩ := entry.pushes tells
    refine ⟨⟨next, later⟩, fun empty => ?_⟩
    have depth := later.depth
    rw [SegmentList.next_eq_zero_iff.mpr (later.cursor_eq_none_iff.mpr empty), pushed] at depth
    simp at depth
  | error refusal after =>
    rw [SegmentMove.turn_advance_error ran] at entry unchanged
    cases entry with
    | unfit _ refused => exact ⟨(Segment.make_eq_error_iff.mp refused).2, unchanged refusal rfl⟩

theorem retreat_ends (tells : ledger.Tells list) :
    Ends (fun _ after => (∃ next : Ledger, next.Tells after) ∧ after = { list with cursor := after.cursor })
      (fun refusal after => refusal = .underflow ∧ after = list) (retreat list) := by
  obtain ⟨next, entry, later, unchanged⟩ := tells.turn (fun _ => 0) .retreat
  cases ran : retreat list with
  | ok segment after =>
    rw [SegmentMove.turn_retreat_ok ran] at entry later
    cases entry with
    | pop stacked =>
      obtain ⟨cursor, segment, under, _⟩ := tells.below_cursor stacked
      cases ran.symm.trans (retreat_pop cursor under)
      exact ⟨⟨_, later⟩, rfl⟩
  | error refusal after =>
    rw [SegmentMove.turn_retreat_error ran] at entry unchanged
    cases entry with
    | underflow => exact ⟨rfl, unchanged _ rfl⟩

end SegmentM

namespace ThreadM

section
variable {α β : Type} {thread : Thread} {done : α → Thread → Prop} {failed : Failure → Thread → Prop}

theorem segments_ends {operation : SegmentM α}
    (refused : ∀ refusal list, operation thread.segments = .error refusal list →
      failed (.refused refusal) { thread with segments := list })
    (answered : ∀ answer list, operation thread.segments = .ok answer list → done answer { thread with segments := list }) :
    Ends done failed (segments operation thread) := by
  unfold segments
  cases ran : operation thread.segments with
  | ok answer list => exact answered answer list ran
  | error refusal list => exact refused refusal list ran

theorem segments_bind {operation : SegmentM β} {next : β → ThreadM α}
    (refused : ∀ refusal list, operation thread.segments = .error refusal list →
      failed (.refused refusal) { thread with segments := list })
    (rest : ∀ answer list, operation thread.segments = .ok answer list →
      Ends done failed (next answer { thread with segments := list })) :
    Ends done failed ((segments operation >>= next) thread) := by
  let middle (answer : β) (after : Thread) :=
    ∃ list, operation thread.segments = .ok answer list ∧ { thread with segments := list } = after
  have before : Ends middle failed (segments operation thread) :=
    segments_ends refused fun answer list ran => ⟨list, ran, rfl⟩
  refine before.bind ?_
  rintro answer _ ⟨list, ran, rfl⟩
  exact rest answer list ran

theorem inRange_bind {value : Option β} {next : β → ThreadM α} (overflow : failed (.stopped .overflow) thread)
    (rest : ∀ result, value = some result → Ends done failed (next result thread)) :
    Ends done failed ((inRange value >>= next) thread) := by
  cases value with
  | some result => exact rest result rfl
  | none => exact overflow

theorem insisting_ends {operation : ThreadM α} (ends : Ends done failed (operation thread)) :
    Ends done (fun failure after => ∃ cause : Failure, failure = .stopped cause.fault ∧ failed cause after)
      (insisting operation thread) := by
  unfold insisting
  cases ran : operation thread with
  | ok answer after => exact ends.of_ok ran
  | error cause after => exact ⟨cause, rfl, ends.of_error ran⟩

end
end ThreadM

/-- The thread without its segments, and with nothing noted of the operating system's stack. -/
def Thread.emptied (thread : Thread) : Thread :=
  { thread with segments := { thread.segments with segments := [], cursor := none }, os := none }

/-- No function can be called on a fresh green stack. -/
def Thread.Busy (thread : Thread) : Prop := thread.green = true ∨ thread.segments.segments ≠ []

instance (thread : Thread) : Decidable thread.Busy := inferInstanceAs (Decidable (_ ∨ _))

/-- The size of the segment on which a function starts on a green stack. -/
def Thread.firstSize (thread : Thread) : Word := max thread.settings.initialSegment 0x30

/-- That segment would be too large for a block of memory. -/
def Thread.Overlarge (thread : Thread) : Prop :=
  Segment.maxBlock < thread.firstSize.toNat + thread.settings.redZone.toNat

instance (thread : Thread) : Decidable thread.Overlarge := inferInstanceAs (Decidable (_ < _))

/-- The operating system's stack is not known, or there is no room left on it for a call. -/
def Thread.Stranded (thread : Thread) : Prop := ∀ os, thread.os = some os → os.current < osGap

theorem Thread.os_ne_none {thread : Thread} (reachable : ¬ thread.Stranded) : thread.os ≠ none :=
  fun none => reachable fun _ noted => nomatch none.symm.trans noted

/-- What a request that is answered makes of a thread. A thread that had no segment in use notes where it left the
operating system's stack. -/
structure Thread.Served (place : Nat → Word) (thread after : Thread) : Prop where
  settings : after.settings = thread.settings
  green : after.green = thread.green
  onOs : after.onOs = thread.onOs
  grown : after.segments = thread.segments ∧ after.os = thread.os ∨
    ∃ size segment, SegmentM.advance place size thread.settings.redZone thread.segments = .ok segment after.segments ∧
      if thread.segments.current?.isNone then after.os ≠ none else after.os = thread.os

def Thread.Held (thread : Thread) : Prop := thread.segments.segments ≠ []

theorem Thread.Served.held {place : Nat → Word} {thread after : Thread} {ledger : Ledger}
    (served : thread.Served place after) (tells : ledger.Tells thread.segments) (held : thread.Held) : after.Held := by
  rcases served.grown with ⟨same, _⟩ | ⟨size, segment, advanced, _⟩
  · rw [Held, same]
    exact held
  · exact ((SegmentM.advance_ends tells place size _).of_ok advanced).2

def Thread.Unserved (thread : Thread) (failure : Failure) (after : Thread) : Prop :=
  after = thread ∧ (failure = .refused .noOsStack ∨ ∃ size redZone, failure = .refused (.invalidSegmentSize size redZone)) ∨
    failure = .stopped .overflow ∧ after.green = thread.green ∧ after.onOs = thread.onOs

namespace ThreadM

variable {thread : Thread} {ledger : Ledger}

theorem switchToOs_ends (argBytes : Word) (thread : Thread) :
    Ends (fun _ after => after = thread) thread.Unserved (switchToOs argBytes thread) := by
  refine .step rfl ?_
  cases thread.os with
  | none => exact .inl ⟨rfl, .inl rfl⟩
  | some os =>
    refine inRange_bind (.inr ⟨rfl, rfl, rfl⟩) fun need _ => ?_
    cases Word.sub? os.current need with
    | none => exact .inl ⟨rfl, .inl rfl⟩
    | some sp => exact rfl

theorem switchToSegment_ends (tells : ledger.Tells thread.segments) (place : Nat → Word) (argBytes stubSp : Word)
    (caller : StackRange) :
    Ends (fun _ after => thread.Served place after) thread.Unserved (switchToSegment place argBytes stubSp caller thread) := by
  refine .step rfl (inRange_bind (.inr ⟨rfl, rfl, rfl⟩) fun size _ => segments_bind ?_ fun segment list advanced => ?_)
  · intro refusal list refused
    obtain ⟨rfl, rfl⟩ := (SegmentM.advance_ends tells place size _).of_error refused
    exact .inl ⟨rfl, .inr ⟨_, _, rfl⟩⟩
  split
  next first =>
    refine inRange_bind (.inr ⟨rfl, rfl, rfl⟩) fun current _ => .step rfl ?_
    refine inRange_bind (.inr ⟨rfl, rfl, rfl⟩) fun sp _ => ⟨rfl, rfl, rfl, .inr ⟨size, segment, advanced, ?_⟩⟩
    rw [if_pos first]
    exact nofun
  next more =>
    refine inRange_bind (.inr ⟨rfl, rfl, rfl⟩) fun sp _ => ⟨rfl, rfl, rfl, .inr ⟨size, segment, advanced, ?_⟩⟩
    rw [if_neg more]

theorem allocate_ends (tells : ledger.Tells thread.segments) (place : Nat → Word) (request : Request) (stubSp : Word)
    (caller : StackRange) :
    Ends (fun _ after => thread.Served place after) thread.Unserved (allocate place request stubSp caller thread) := by
  cases request with
  | os argBytes =>
    refine (switchToOs_ends argBytes thread).bind fun ⟨sp, range⟩ after same => ?_
    refine inRange_bind (.inr ⟨rfl, same ▸ rfl, same ▸ rfl⟩) fun _ _ => ?_
    refine inRange_bind (.inr ⟨rfl, same ▸ rfl, same ▸ rfl⟩) fun _ _ => ?_
    exact same ▸ ⟨rfl, rfl, rfl, .inl ⟨rfl, rfl⟩⟩
  | grow argBytes =>
    refine (switchToSegment_ends tells place argBytes stubSp caller).bind fun ⟨sp, range⟩ after served => ?_
    refine inRange_bind (.inr ⟨rfl, served.green, served.onOs⟩) fun _ _ => ?_
    exact inRange_bind (.inr ⟨rfl, served.green, served.onOs⟩) fun _ _ => served

/-- Serving a stub has no outcomes but success and stops. -/
theorem serve_ends (tells : ledger.Tells thread.segments) (place : Nat → Word) (size : Int32) (stubSp : Word)
    (memory : Memory) :
    Ends (fun _ after => thread.Served place after)
      (fun failure after => ∃ fault, failure = .stopped fault ∧ fault ≠ .fatal .inUse ∧
        after.green = thread.green ∧ after.onOs = thread.onOs) (serve place size stubSp memory thread) := by
  refine inRange_bind ⟨_, rfl, nofun, rfl, rfl⟩ fun spilled _ => ?_
  refine .bind ((insisting_ends (allocate_ends tells place _ stubSp _)).mono (fun _ _ served => served) ?_) ?_
  · rintro _ after ⟨cause, rfl, ⟨rfl, rfl | ⟨size, redZone, rfl⟩⟩ | ⟨rfl, green, onOs⟩⟩
    · exact ⟨_, rfl, nofun, rfl, rfl⟩
    · exact ⟨_, rfl, nofun, rfl, rfl⟩
    · exact ⟨_, rfl, nofun, green, onOs⟩
  · intro switch after served
    exact inRange_bind ⟨_, rfl, nofun, served.green, served.onOs⟩ fun _ _ => served

theorem release_ends (tells : ledger.Tells thread.segments) :
    Ends (fun _ after => (∃ next : Ledger, next.Tells after.segments) ∧
        after = { thread with segments.cursor := after.segments.cursor })
      (fun failure after => failure = .refused .underflow ∧ after = thread) (release thread) := by
  refine .step rfl ?_
  split
  next =>
    refine .discard (segments_ends ?_ ?_)
    · intro refusal list refused
      obtain ⟨rfl, rfl⟩ := (SegmentM.retreat_ends tells).of_error refused
      exact ⟨rfl, rfl⟩
    · intro segment list moved
      obtain ⟨later, same⟩ := (SegmentM.retreat_ends tells).of_ok moved
      exact ⟨later, congrArg (fun segments => { thread with segments }) same⟩
  next => exact ⟨⟨ledger, tells⟩, rfl⟩

theorem free_of_busy (busy : (thread.green || thread.onOs) = true) : free thread = .error (.refused .inUse) thread := by
  change free.run thread = _
  simp only [free, EStateM.run_bind, EStateM.run_get, busy, if_true]
  rfl

theorem free_of_idle (idle : (thread.green || thread.onOs) = false) :
    free thread = .ok thread.segments.segments.length thread.emptied := by
  change free.run thread = _
  simp only [free, EStateM.run_bind, EStateM.run_get, idle, Bool.false_eq_true, if_false]
  rfl

theorem reset_run (thread : Thread) :
    reset thread = .ok () { thread.emptied with green := false, onOs := false } := rfl

theorem leaveGreen_run (home : thread.onOs = false) :
    leaveGreen thread = .ok () { thread.emptied with green := false } := by
  have freed := @free_of_idle { thread with green := false } home
  change leaveGreen.run thread = _
  simp only [leaveGreen, EStateM.run_bind, EStateM.run_modify]
  change EStateM.map _ (insisting free) _ = _
  simp only [EStateM.map, insisting, freed]
  rfl

theorem leaveGreen_of_away (away : thread.onOs = true) :
    leaveGreen thread = .error (.stopped (.fatal .inUse)) { thread with green := false } := by
  have busy := @free_of_busy { thread with green := false } (by simp [away])
  change leaveGreen.run thread = _
  simp only [leaveGreen, EStateM.run_bind, EStateM.run_modify]
  change EStateM.map _ (insisting free) _ = _
  simp only [EStateM.map, insisting, busy]
  rfl

theorem segmentSize_zero (thread : Thread) (first : Bool) : ∃ size, thread.segmentSize 0 first = some size :=
  ⟨_, rfl⟩

/-- A thread without segments gets its first one unless that is too large. -/
theorem advance_first (idle : ¬ thread.Busy) (place : Nat → Word) :
    Ends (fun _ _ => ¬ thread.Overlarge)
      (fun refusal list => list = thread.segments ∧ thread.Overlarge ∧
        refusal = .invalidSegmentSize thread.firstSize thread.settings.redZone)
      (SegmentM.advance place thread.firstSize thread.settings.redZone thread.segments) := by
  have missing : thread.segments.reusable? thread.firstSize = none := by
    have none : thread.segments.segments = [] := Classical.not_not.mp fun held => idle (.inr held)
    simp [SegmentList.reusable?, none]
  have filled : thread.firstSize ≠ 0 := fun none => by
    have least : 0x30 ≤ thread.firstSize := Word.le_max_right _ _
    rw [none] at least
    exact absurd least (by decide)
  cases ran : SegmentM.advance place thread.firstSize thread.settings.redZone thread.segments with
  | ok segment list =>
    obtain ⟨found, _⟩ | ⟨_, made, _⟩ := SegmentM.advance_cases ran
    · cases missing.symm.trans found
    · exact Nat.not_lt.mpr (Segment.make_eq_ok_iff.mp made).2.1
  | error refusal list =>
    obtain ⟨_, unmade, rfl⟩ := SegmentM.advance_refused ran
    obtain ⟨large, rfl⟩ := Segment.make_eq_error_iff.mp unmade
    exact ⟨rfl, large.resolve_left filled, rfl⟩

theorem enterGreen_ends (tells : ledger.Tells thread.segments) (place : Nat → Word) :
    Ends (fun _ after => ¬ thread.Busy ∧ ¬ thread.Overlarge ∧ (∃ size segment,
          SegmentM.advance place size thread.settings.redZone thread.segments = .ok segment after.segments) ∧
        after = { thread with segments := after.segments, green := true })
      (fun failure after => after = thread ∧ (thread.Busy ∧ failure = .refused .alreadyGreen ∨
        ¬ thread.Busy ∧ thread.Overlarge ∧
          failure = .refused (.invalidSegmentSize thread.firstSize thread.settings.redZone)))
      (enterGreen place thread) := by
  have guard : (thread.green || thread.segments.current?.isSome) = true ↔ thread.Busy := by
    rw [Bool.or_eq_true, tells.current?_isSome_iff, Thread.Busy]
  refine .step rfl ?_
  split
  next busy => exact ⟨rfl, .inl ⟨guard.mp busy, rfl⟩⟩
  next idle =>
    have idle : ¬ thread.Busy := mt guard.mpr idle
    have sized : thread.segmentSize 0 true = some thread.firstSize := rfl
    rw [sized]
    refine segments_bind ?_ ?_
    · intro refusal list refused
      obtain ⟨rfl, large, rfl⟩ := (advance_first idle place).of_error refused
      exact ⟨rfl, .inr ⟨idle, large, rfl⟩⟩
    · intro segment list advanced
      exact ⟨idle, (advance_first idle place).of_ok advanced, ⟨_, segment, advanced⟩, rfl⟩

theorem enterOs_ends (thread : Thread) :
    Ends (fun (_, was) after => thread.green = true ∧ was = thread.onOs ∧ ¬ thread.Stranded ∧
        after = { thread with green := false, onOs := true })
      (fun failure after => after = thread ∧ (thread.green = false ∧ failure = .refused .notGreen ∨
        thread.green = true ∧ thread.Stranded ∧ failure = .refused .noOsStack)) (enterOs thread) := by
  refine .step rfl ?_
  split
  next home => exact ⟨rfl, .inl ⟨by simpa using home, rfl⟩⟩
  next running =>
    have running : thread.green = true := by simpa using running
    cases snapshot : thread.os with
    | none =>
      have stranded : thread.Stranded := fun os noted => by cases snapshot.symm.trans noted
      exact ⟨rfl, .inr ⟨running, stranded, rfl⟩⟩
    | some os =>
      dsimp only
      cases below : Word.sub? os.current osGap with
      | none =>
        have stranded : thread.Stranded := fun other noted => by
          cases snapshot.symm.trans noted
          exact UInt64.lt_iff_toNat_lt.mpr (Word.sub?_eq_none_iff.mp below)
        exact ⟨rfl, .inr ⟨running, stranded, rfl⟩⟩
      | some sp =>
        have room : osGap.toNat ≤ os.current.toNat := (Word.sub?_eq_some_iff.mp below).1
        refine ⟨running, rfl, fun stranded => ?_, rfl⟩
        exact Nat.not_lt.mpr room (UInt64.lt_iff_toNat_lt.mp (stranded os snapshot))

end ThreadM
end CallStacks.Green
