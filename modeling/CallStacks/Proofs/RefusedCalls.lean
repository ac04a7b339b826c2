import CallStacks.Proofs.GreenRequests

/-! A call that is refused leaves no trace. All reasons to refuse it are found before anything is changed, the last of
them by the segment list, which asks for a new segment before it moves the cursor. So each call is refused exactly for
its reasons, and then the thread stands as it did before. -/

namespace CallStacks.Green

variable {place : Nat → Word} {settings : Settings} {memory : Memory} {stubSp : Word} {caller : StackRange}
  {thread after : Thread} {refusal : Refusal} {ledger : Ledger}

namespace Thread

def RefusesRequest (thread : Thread) (refusal : Refusal) : Request → Prop
  | .os argBytes => refusal = .noOsStack ∧ thread.Cramped argBytes.toNat
  | .grow argBytes => ∃ size,
      thread.segmentSize argBytes thread.segments.current?.isNone = some size ∧ thread.Unhoused size refusal

/-- Why a thread does not start on a green stack: it has one, or a first growth would be refused. -/
def RefusesEntry (thread : Thread) (refusal : Refusal) : Prop :=
  refusal = .alreadyGreen ∧ thread.Busy ∨ ¬ thread.Busy ∧ thread.RefusesRequest refusal (.grow 0)

/-- Why a thread does not go to the operating system's stack: it is not on a green one, or there is no place. -/
def RefusesLeave (thread : Thread) (refusal : Refusal) : Prop :=
  refusal = .notGreen ∧ thread.green = false ∨ thread.green = true ∧ thread.RefusesRequest refusal (.os 0)

end Thread

theorem SegmentM.retreat_eq_error_iff {list after : SegmentList} (tells : ledger.Tells list) :
    retreat list = .error refusal after ↔ after = list ∧ refusal = .underflow ∧ list.next ≤ 1 := by
  constructor
  · intro refused
    obtain ⟨rfl, rfl⟩ := (retreat_ends tells).of_error refused
    refine ⟨rfl, rfl, Nat.le_of_not_lt fun several => ?_⟩
    obtain ⟨index, above⟩ : ∃ index, after.cursor = some (index + 1) :=
      ⟨after.next - 2, SegmentList.next_eq_succ_iff.mp (by omega)⟩
    have under := tells.cursor_lt above
    have moved := retreat_pop above (List.getElem?_eq_getElem (Nat.lt_of_succ_lt under))
    cases moved.symm.trans refused
  · rintro ⟨rfl, rfl, few⟩
    exact retreat_underflow few

namespace ThreadM

section
variable {α : Type} {operation : ThreadM α} {value : α} {last : Thread} {cause : Refusal} {reason : Prop}

private theorem refused_iff_of_ok (ran : operation thread = .ok value last) (groundless : ¬ reason) :
    operation thread = .error (.refused refusal) after ↔ after = thread ∧ reason := by
  rw [ran]
  exact iff_of_false nofun fun refused => groundless refused.2

private theorem refused_iff_of_error (ran : operation thread = .error (.refused cause) thread)
    (only : reason ↔ refusal = cause) :
    operation thread = .error (.refused refusal) after ↔ after = thread ∧ reason := by
  rw [ran, only]
  constructor
  · rintro ⟨⟩
    exact ⟨rfl, rfl⟩
  · rintro ⟨rfl, rfl⟩
    rfl

end

private theorem allocate_refused_iff {request : Request} (few : request.argBytes.toNat < 0x80000000) :
    allocate place request stubSp caller thread = .error (.refused refusal) after ↔
      after = thread ∧ thread.RefusesRequest refusal request := by
  constructor
  · intro refused
    cases request with
    | os argBytes =>
      obtain ⟨same, ⟨cause, cramped⟩ | ⟨cause, _⟩⟩ := (allocate_tops few place stubSp caller thread).of_error refused
      · cases cause
        exact ⟨same, rfl, cramped⟩
      · cases cause
    | grow argBytes =>
      obtain ⟨_, cause, same, unhoused⟩ | cause := (allocate_grown place argBytes stubSp caller thread).of_error refused
      · cases cause
        exact ⟨same, unhoused⟩
      · cases cause
  · rintro ⟨rfl, reason⟩
    cases request with
    | os argBytes =>
      obtain ⟨rfl, cramped⟩ := reason
      exact EStateM.bind_of_error (switchToOs_of_cramped few cramped)
    | grow argBytes =>
      obtain ⟨size, sized, unhoused⟩ := reason
      exact EStateM.bind_of_error (switchToSegment_of_unhoused sized unhoused place stubSp caller)

private theorem release_refused_iff (tells : ledger.Tells thread.segments) :
    release thread = .error (.refused refusal) after ↔
      after = thread ∧ refusal = .underflow ∧ thread.green = true ∧ thread.segments.next ≤ 1 := by
  have checked : release thread = (if thread.green then discard (segments SegmentM.retreat) else pure ()) thread :=
    EStateM.bind_of_ok rfl
  cases green : thread.green with
  | false =>
    rw [green] at checked
    exact refused_iff_of_ok checked (by simp)
  | true =>
    have moved : release thread = EStateM.map _ (segments SegmentM.retreat) thread :=
      checked.trans (by rw [if_pos green]; rfl)
    simp only [EStateM.map, segments] at moved
    cases went : SegmentM.retreat thread.segments with
    | ok segment list =>
      rw [went] at moved
      refine refused_iff_of_ok moved ?_
      rintro ⟨_, _, few⟩
      cases went.symm.trans (SegmentM.retreat_underflow few)
    | error cause list =>
      obtain ⟨rfl, rfl, few⟩ := (SegmentM.retreat_eq_error_iff tells).mp went
      rw [went] at moved
      exact refused_iff_of_error moved (and_iff_left ⟨rfl, few⟩)

private theorem free_refused_iff : free thread = .error (.refused refusal) after ↔
    after = thread ∧ refusal = .inUse ∧ (thread.green = true ∨ thread.onOs = true) := by
  rw [← Bool.or_eq_true]
  cases busy : thread.green || thread.onOs with
  | true => exact refused_iff_of_error (free_of_busy busy) (and_iff_left rfl)
  | false => exact refused_iff_of_ok (free_of_idle busy) (by simp)

private theorem enterGreen_of_busy (tells : ledger.Tells thread.segments) (busy : thread.Busy) :
    enterGreen place thread = .error (.refused .alreadyGreen) thread := by
  have guard : (thread.green || thread.segments.current?.isSome) = true := by
    rwa [Bool.or_eq_true, tells.current?_isSome_iff]
  change (enterGreen place).run thread = _
  simp only [enterGreen, EStateM.run_bind, EStateM.run_get, guard, if_true]
  rfl

private theorem enterGreen_of_idle {size : Word} (tells : ledger.Tells thread.segments) (idle : ¬ thread.Busy)
    (sized : thread.segmentSize 0 true = some size) :
    enterGreen place thread = (segments (SegmentM.advance place size thread.settings.redZone) >>= fun segment => do
      modify ({ · with green := true })
      return Word.alignDown segment.base stackAlign) thread := by
  have guard : ¬ (thread.green || thread.segments.current?.isSome) = true := by
    rwa [Bool.or_eq_true, tells.current?_isSome_iff]
  refine (EStateM.bind_of_ok rfl).trans ?_
  rw [if_neg guard, sized]
  rfl

private theorem refusesEntry_of_busy (busy : thread.Busy) : thread.RefusesEntry refusal ↔ refusal = .alreadyGreen := by
  simp [Thread.RefusesEntry, busy]

private theorem refusesEntry_of_idle {size : Word} (tells : ledger.Tells thread.segments) (idle : ¬ thread.Busy)
    (sized : thread.segmentSize 0 true = some size) : thread.RefusesEntry refusal ↔ thread.Unhoused size refusal := by
  have first : thread.segments.current?.isNone = true := by
    have unused := mt (fun held => .inr (tells.current?_isSome_iff.mp held)) idle
    simpa using unused
  simp [Thread.RefusesEntry, Thread.RefusesRequest, idle, first, sized]

private theorem enterGreen_refused_iff (tells : ledger.Tells thread.segments) :
    enterGreen place thread = .error (.refused refusal) after ↔ after = thread ∧ thread.RefusesEntry refusal := by
  by_cases busy : thread.Busy
  · exact refused_iff_of_error (enterGreen_of_busy tells busy) (refusesEntry_of_busy busy)
  obtain ⟨size, sized⟩ := segmentSize_zero thread true
  have room := Thread.le_of_segmentSize sized
  have refuses := @SegmentM.advance_eq_error_iff place thread.segments size thread.settings.redZone
  have taken := @enterGreen_of_idle place _ _ size tells busy sized
  rw [refusesEntry_of_idle tells busy sized]
  cases advanced : SegmentM.advance place size thread.settings.redZone thread.segments with
  | ok segment list =>
    have entered : segments (SegmentM.advance place size thread.settings.redZone) thread =
        .ok segment { thread with segments := list } := by simp only [segments, advanced]
    refine refused_iff_of_ok (taken.trans (EStateM.bind_of_ok entered)) fun unhoused => ?_
    cases advanced.symm.trans ((refuses (by omega)).mpr ⟨rfl, unhoused⟩)
  | error cause list =>
    obtain ⟨rfl, missing, large, rfl⟩ := (refuses (by omega)).mp advanced
    have stuck : segments (SegmentM.advance place size thread.settings.redZone) thread =
        .error (.refused (.invalidSegmentSize size thread.settings.redZone)) thread := by
      simp only [segments, advanced]
    exact refused_iff_of_error (taken.trans (EStateM.bind_of_error stuck))
      ⟨fun unhoused => unhoused.2.2, fun same => ⟨missing, large, same⟩⟩

/-- On a green stack, a call on the operating system's stack is a request for it without arguments. -/
theorem enterOs_of_green (green : thread.green = true) :
    enterOs thread = (switchToOs 0 >>= fun (sp, _) => do
      set { thread with green := false, onOs := true }
      return (sp, thread.onOs)) thread := by
  have need : (inRange (Word.add? osGap 0) : ThreadM Word) = pure osGap := rfl
  change enterOs.run thread = EStateM.run (switchToOs 0 >>= _) thread
  simp only [enterOs, switchToOs, EStateM.run_bind, EStateM.run_get, green, need, pure_bind]
  cases thread.os with
  | none => rfl
  | some os =>
    dsimp only
    cases Word.sub? os.current osGap with
    | none => rfl
    | some sp => rfl

private theorem enterOs_of_home (home : thread.green = false) :
    enterOs thread = .error (.refused .notGreen) thread := by
  change enterOs.run thread = _
  simp only [enterOs, EStateM.run_bind, EStateM.run_get, home]
  rfl

private theorem enterOs_refused_iff : enterOs thread = .error (.refused refusal) after ↔
    after = thread ∧ thread.RefusesLeave refusal := by
  cases green : thread.green with
  | false => exact refused_iff_of_error (enterOs_of_home green) (by simp [Thread.RefusesLeave, green])
  | true =>
    have taken := enterOs_of_green green
    have reason : thread.RefusesLeave refusal ↔ refusal = .noOsStack ∧ thread.Cramped 0 := by
      simp [Thread.RefusesLeave, Thread.RefusesRequest, green]
    have ends := @switchToOs_tops 0 (by decide) thread
    rw [reason]
    cases ran : switchToOs 0 thread with
    | ok answer last =>
      obtain ⟨_, os, known, _, tops⟩ := ends.of_ok ran
      rw [EStateM.bind_of_ok ran] at taken
      exact refused_iff_of_ok taken fun refused => refused.2 os _ known tops.toOffers
    | error failure last =>
      obtain ⟨rfl, rfl, cramped⟩ := ends.of_error ran
      rw [EStateM.bind_of_error ran] at taken
      exact refused_iff_of_error taken (and_iff_left cramped)

end ThreadM

namespace RunM

variable {α β : Type} {run last : Run}

private theorem attempt_refused_iff {operation : ThreadM α} : attempt operation run = .ok (.error refusal) last ↔
    ∃ thread, operation run.world.thread = .error (.refused refusal) thread ∧ last = run.withThread thread := by
  unfold attempt
  cases operation run.world.thread with
  | ok value thread => exact iff_of_false nofun nofun
  | error failure thread =>
    cases failure with
    | stopped fault => exact iff_of_false nofun nofun
    | refused cause =>
      constructor
      · rintro ⟨⟩
        exact ⟨thread, rfl, rfl⟩
      · rintro ⟨_, ⟨⟩, rfl⟩
        rfl

def Firm (operation : RunM (Except Refusal α)) : Prop :=
  ∀ run refusal last, operation run ≠ .ok (.error refusal) last

private theorem firm_pure (value : α) : Firm (pure (.ok value)) := fun run refusal last answered => by cases answered

private theorem firm_bind {first : RunM β} {next : β → RunM (Except Refusal α)} (firm : ∀ value, Firm (next value)) :
    Firm (first >>= next) := by
  intro run refusal last ran
  obtain ⟨value, between, _, rest⟩ := EStateM.bind_eq_ok.mp ran
  exact firm value between refusal last rest

/-- A refusal of the first part is passed on, and there is no other. -/
theorem bind_refused_iff {first : RunM (Except Refusal β)} {rest : Except Refusal β → RunM (Except Refusal α)}
    {noted : Refusal → Run → Run} (firm : ∀ value, Firm (rest (.ok value)))
    (passed : ∀ refusal run, rest (.error refusal) run = .ok (.error refusal) (noted refusal run)) :
    (first >>= rest) run = .ok (.error refusal) last ↔
      ∃ between, first run = .ok (.error refusal) between ∧ last = noted refusal between := by
  rw [EStateM.bind_eq_ok]
  constructor
  · rintro ⟨value | value, between, ran, ends⟩
    · rw [passed] at ends
      cases ends
      exact ⟨between, ran, rfl⟩
    · exact absurd ends (firm value _ _ _)
  · rintro ⟨between, ran, rfl⟩
    exact ⟨_, between, ran, passed _ _⟩

end RunM

namespace Call
open RunM

variable {α β γ : Type} {run last : Run} {call : Call} {depth : Nat} {body : RunM Unit}

private theorem refused_iff (depth : Nat) {ready : ThreadM β} {enter : Except Refusal β → RunM (Except Refusal γ)}
    {rest : Except Refusal γ → RunM (Except Refusal α)} {reason : Prop}
    (unready : ∀ after, ready run.world.thread = .error (.refused refusal) after ↔ after = run.world.thread ∧ reason)
    (entered : ∀ value, Firm (enter (.ok value)))
    (told : ∀ refusal run, enter (.error refusal) run = .ok (.error refusal) (run.told depth (.refused refusal)))
    (answered : ∀ value, Firm (rest (.ok value)))
    (passed : ∀ refusal run, rest (.error refusal) run = .ok (.error refusal) run) :
    ((call.board >>= fun _ => attempt ready >>= enter) >>= rest) run = .ok (.error refusal) last ↔
      last = (call.boarded run).told depth (.refused refusal) ∧ reason := by
  have started {between : Run} : (call.board >>= fun _ => attempt ready >>= enter) run = .ok (.error refusal) between ↔
      ∃ before, attempt ready (call.boarded run) = .ok (.error refusal) before ∧
        between = before.told depth (.refused refusal) := by
    rw [show (call.board >>= fun _ => attempt ready >>= enter) run = _ from EStateM.bind_of_ok rfl]
    exact bind_refused_iff entered told
  rw [bind_refused_iff answered passed]
  constructor
  · rintro ⟨_, ran, rfl⟩
    obtain ⟨_, attempted, rfl⟩ := started.mp ran
    obtain ⟨_, refused, rfl⟩ := attempt_refused_iff.mp attempted
    obtain ⟨rfl, reason⟩ := (unready _).mp refused
    exact ⟨rfl, reason⟩
  · rintro ⟨rfl, reason⟩
    have refused := (unready _).mpr ⟨rfl, reason⟩
    exact ⟨_, started.mpr ⟨_, attempt_refused_iff.mpr ⟨_, refused, rfl⟩, rfl⟩, rfl⟩

private theorem onGreen_refused_iff (tells : ledger.Tells run.world.thread.segments) :
    call.onGreen place depth body run = .ok (.error refusal) last ↔
      last = (call.boarded run).told depth (.refused refusal) ∧ run.world.thread.RefusesEntry refusal := by
  unfold onGreen startGreen
  refine refused_iff depth (fun _ => ThreadM.enterGreen_refused_iff tells) ?_ (fun _ _ => rfl) ?_ fun _ _ => rfl
  · exact fun _ => firm_bind fun _ => firm_bind fun _ => firm_bind fun _ => firm_pure ()
  · exact fun _ => firm_bind fun _ => firm_bind fun _ => firm_pure _

private theorem onOs_refused_iff :
    call.onOs depth body run = .ok (.error refusal) last ↔
      last = (call.boarded run).told depth (.refused refusal) ∧ run.world.thread.RefusesLeave refusal := by
  unfold onOs startOs
  refine refused_iff depth (fun _ => ThreadM.enterOs_refused_iff) ?_ (fun _ _ => rfl) ?_ fun _ _ => rfl
  · exact fun _ => firm_bind fun _ => firm_bind fun _ => firm_pure _
  · exact fun _ => firm_bind fun _ => firm_bind fun _ => firm_pure _

end Call

namespace Moment

variable {program : Program}

/-- In any moment of a run, each call is refused exactly for its reasons. Then the thread is as it was, with its
segments, the cursor, the count of what was allocated, what is noted of the operating system's stack and both flags, and
a function that was to run on another stack has not run. -/
theorem refused_unchanged {moment : Moment} (reached : Leads place (start settings memory program) moment) :
    (∀ size stubSp caller refusal after,
      ThreadM.allocate place (Request.decode size) stubSp caller moment.thread = .error (.refused refusal) after ↔
        after = moment.thread ∧ moment.thread.RefusesRequest refusal (Request.decode size)) ∧
    (∀ refusal after, ThreadM.release moment.thread = .error (.refused refusal) after ↔
      after = moment.thread ∧ refusal = .underflow ∧ moment.thread.green = true ∧ moment.thread.segments.next ≤ 1) ∧
    (∀ refusal after, ThreadM.free moment.thread = .error (.refused refusal) after ↔
      after = moment.thread ∧ refusal = .inUse ∧ (moment.thread.green = true ∨ moment.thread.onOs = true)) ∧
    (∀ call depth body refusal last, Call.onGreen place depth call body moment.run = .ok (.error refusal) last ↔
      last = (call.boarded moment.run).told depth (.refused refusal) ∧ last.world.thread = moment.thread ∧
        moment.thread.RefusesEntry refusal) ∧
    ∀ call depth body refusal last, Call.onOs depth call body moment.run = .ok (.error refusal) last ↔
      last = (call.boarded moment.run).told depth (.refused refusal) ∧ last.world.thread = moment.thread ∧
        moment.thread.RefusesLeave refusal := by
  obtain ⟨ledger, tells⟩ := reached.settled.1.run.thread.told
  have still {call : Call} {depth : Nat} {refusal : Refusal} {last : Run} {reason : Prop} :
      (last = (call.boarded moment.run).told depth (.refused refusal) ∧ reason) ↔
        last = (call.boarded moment.run).told depth (.refused refusal) ∧ last.world.thread = moment.thread ∧ reason :=
    and_congr_right fun same => (and_iff_right (congrArg (·.world.thread) same)).symm
  exact ⟨fun size _ _ _ _ => ThreadM.allocate_refused_iff (Request.argBytes_decode_lt size),
    fun _ _ => ThreadM.release_refused_iff tells, fun _ _ => ThreadM.free_refused_iff,
    fun _ _ _ _ _ => (Call.onGreen_refused_iff tells).trans still, fun _ _ _ _ _ => Call.onOs_refused_iff.trans still⟩

/-- A thread on a green stack, with next to nothing left below on the operating system's and no way to lay out a second
segment, is refused everything. -/
theorem refused_unchanged_everywhere : ∃ moment : Moment,
    Leads (fun _ => 0x100000) (start { minSegment := 0xfffffffffffff000 } .blank
      (.enterGreen ⟨1, none, .native 0x100⟩ .done .done)) moment ∧
    moment.thread.segments.segments.length = 1 ∧
    ThreadM.allocate (fun _ => 0x100000) (Request.decode 0) 0x9000 {} moment.thread =
      .error (.refused (.invalidSegmentSize 0xfffffffffffff000 0x1000)) moment.thread ∧
    ThreadM.allocate (fun _ => 0x100000) (Request.decode (-1)) 0x9000 {} moment.thread =
      .error (.refused .noOsStack) moment.thread ∧
    ThreadM.release moment.thread = .error (.refused .underflow) moment.thread ∧
    ThreadM.free moment.thread = .error (.refused .inUse) moment.thread ∧
    (∃ last, Call.onGreen (fun _ => 0x100000) 1 ⟨2, none, .native 0x80⟩ (pure ()) moment.run =
      .ok (.error .alreadyGreen) last ∧ last.world.thread = moment.thread) ∧
    ∃ last, Call.onOs 1 ⟨2, none, .native 0x80⟩ (pure ()) moment.run = .ok (.error .noOsStack) last ∧
      last.world.thread = moment.thread := by
  have reached : Leads (fun _ => 0x100000) (start { minSegment := 0xfffffffffffff000 } .blank
      (.enterGreen ⟨1, none, .native 0x100⟩ .done .done)) _ :=
    Step.leads (.enterGreen rfl)
  obtain ⟨requests, releases, frees, entries, leaves⟩ := refused_unchanged reached
  have cramped : ∀ thread : Thread, thread.os = some ⟨⟨0, 0x100⟩, 0x100⟩ → thread.Cramped 0 := by
    rintro thread known os sp same ⟨_, clear⟩
    cases known.symm.trans same
    change _ ≤ 0x100 at clear
    omega
  refine ⟨_, reached, rfl, (requests _ _ _ _ _).mpr ⟨rfl, _, rfl, rfl, by decide, rfl⟩,
    (requests _ _ _ _ _).mpr ⟨rfl, rfl, cramped _ rfl⟩, (releases _ _).mpr ⟨rfl, rfl, rfl, Nat.le_refl 1⟩,
    (frees _ _).mpr ⟨rfl, rfl, .inl rfl⟩, ?_, ?_⟩
  · exact ⟨_, (entries _ _ _ _ _).mpr ⟨rfl, rfl, .inl ⟨rfl, .inl rfl⟩⟩, rfl⟩
  · exact ⟨_, (leaves _ _ _ _ _).mpr ⟨rfl, rfl, .inr ⟨rfl, rfl, cramped _ rfl⟩⟩, rfl⟩

end Moment
end CallStacks.Green
