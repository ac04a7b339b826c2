import CallStacks.Proofs.CaptureFailures
import CallStacks.Proofs.CaptureBounds
import CallStacks.Proofs.RoundTrip
import CallStacks.Proofs.Tallies
import Mathlib.Data.List.TakeWhile

/-! Which frames a capture takes. A walk falls into what comes before the first frame that holds the mark, the longest
run of suspendable frames from there on, and what follows it. A capture freezes that run and nothing else, each frame on
a handle of its own, on one chain that begins with the outermost frame. -/

namespace CallStacks.Frozen

variable {frames before run rest : List LiveFrame} {context : CaptureContext} {live : LiveFrame}

/-- The run of a walk that a capture is to freeze, with what comes before it and what follows. -/
structure Selects (frames before run rest : List LiveFrame) : Prop where
  whole : frames = before ++ run ++ rest
  skipped : ∀ frame ∈ before, frame.starts = false
  first : ∃ frame others, run = frame :: others ∧ frame.starts = true
  suspendable : ∀ frame ∈ run, frame.kind = .suspendable
  longest : ∀ frame others, rest = frame :: others → frame.kind ≠ .suspendable

theorem LiveFrame.kind_of_starts (starts : live.starts = true) : live.kind = .suspendable := by
  simp only [LiveFrame.starts, Bool.and_eq_true, decide_eq_true_eq] at starts
  exact starts.1

namespace Selects

private theorem dropWhile_starts (selects : Selects frames before run rest) :
    frames.dropWhile (!·.starts) = run ++ rest := by
  obtain ⟨frame, others, rfl, starts⟩ := selects.first
  rw [selects.whole, List.append_assoc, List.dropWhile_append_of_pos (by simpa using selects.skipped)]
  exact List.dropWhile_cons_of_neg (by simp [starts])

private theorem rest_eq (selects : Selects frames before run rest) :
    (frames.dropWhile (!·.starts)).dropWhile (·.kind = .suspendable) = rest := by
  rw [selects.dropWhile_starts, List.dropWhile_append_of_pos (by simpa using selects.suspendable)]
  refine List.dropWhile_eq_self_iff.mpr fun further => ?_
  obtain ⟨frame, others, rfl⟩ := List.exists_cons_of_length_pos further
  simpa using selects.longest frame others rfl

private theorem suspended_eq (selects : Selects frames before run rest) : suspended frames = run := by
  have parts := List.takeWhile_append_dropWhile (p := (·.kind = .suspendable)) (l := frames.dropWhile (!·.starts))
  rw [selects.rest_eq, selects.dropWhile_starts] at parts
  exact List.append_cancel_right (by rw [suspended, selects.dropWhile_starts, parts])

end Selects

private theorem exists_selects (marked : ∃ frame ∈ frames, frame.starts = true) :
    ∃ before run rest, Selects frames before run rest := by
  have skip := List.takeWhile_append_dropWhile (p := (!·.starts)) (l := frames)
  have cut := List.takeWhile_append_dropWhile (p := (·.kind = .suspendable)) (l := frames.dropWhile (!·.starts))
  refine ⟨frames.takeWhile (!·.starts), suspended frames,
    (frames.dropWhile (!·.starts)).dropWhile (·.kind = .suspendable), ⟨?_, ?_, ?_, ?_, ?_⟩⟩
  · rw [List.append_assoc, suspended, cut, skip]
  · exact fun frame within => by simpa using List.mem_takeWhile_imp within
  · cases left : frames.dropWhile (!·.starts) with
    | nil =>
      obtain ⟨frame, within, starts⟩ := marked
      simpa [starts] using List.dropWhile_eq_nil_iff.mp left frame within
    | cons frame others =>
      have starts : frame.starts = true := by
        have head := List.head?_dropWhile_not (fun frame : LiveFrame => !frame.starts) frames
        rw [left] at head
        simpa using head
      refine ⟨frame, others.takeWhile (·.kind = .suspendable), ?_, starts⟩
      rw [suspended, left, List.takeWhile_cons_of_pos (by simp [LiveFrame.kind_of_starts starts])]
  · exact fun frame within => by simpa using List.mem_takeWhile_imp within
  · intro frame others same
    have head := List.head?_dropWhile_not (fun frame : LiveFrame => frame.kind = .suspendable)
      (frames.dropWhile (!·.starts))
    rw [same] at head
    simpa using head

namespace Capture

private theorem walk_unmarked (unmarked : ∀ frame ∈ frames, frame.starts = false) :
    walk context {} frames = .ok (frames.length, {}) := by
  induction frames with
  | nil => rfl
  | cons frame rest ih =>
    obtain ⟨first, others⟩ := List.forall_mem_cons.mp unmarked
    have idle : (!({} : Capture).hasStarted && !(frame.kind = .suspendable && frame.holdsMark)) = true := by
      change (!false && !frame.starts) = true
      rw [first]
      rfl
    unfold walk
    rw [if_pos idle, ih others]
    rfl

private theorem not_foreign_of_walk {count : Nat} {final : Capture} (done : walk context {} frames = .ok (count, final))
    (selects : Selects frames before run rest) (frame : LiveFrame) (others : List LiveFrame)
    (follows : rest = frame :: others) : frame.kind ≠ .foreign := by
  intro foreign
  have answered : Prod.snd <$> walk context {} frames = _ := walk_eq
  rw [done] at answered
  obtain ⟨last, _, closed⟩ := CallStacks.Failure.bind_eq_ok.mp answered.symm
  rw [selects.rest_eq, follows, close, if_pos foreign] at closed
  cases closed

theorem Traced.told {earlier later : List Shift} {places : List Nat} {copy : Copied}
    (traced : Traced context earlier later places live copy) :
    copy.frame.resumeAt = live.pc ∧ live.returns.delivery = .ok copy.frame.delivery := by
  obtain ⟨first, _, _, _, copying, outline, _⟩ := traced
  have resumeAt : copy.frame.resumeAt = first.frame.resumeAt := congrArg (·.1.resumeAt) outline
  have delivery : copy.frame.delivery = first.frame.delivery := congrArg (·.1.delivery) outline
  rw [resumeAt, delivery]
  refine ⟨?_, copying.delivery⟩
  rw [copying.built]

end Capture

/-- A frozen frame goes on where the frame would have, waits for the value that it returns, and has its extent: the
bytes from its stack pointer to the end of its arguments, of which there may be a least number. -/
structure LiveFrame.FrozenTo (live : LiveFrame) (least : UInt32) (frozen : FrozenFrame) : Prop where
  resumeAt : frozen.resumeAt = live.pc
  delivery : live.returns.delivery = .ok frozen.delivery
  extent : live.sp.toNat + frozen.buffer.size = live.callerSp.toNat + max live.argBytes.toNat least.toNat
  recorded : frozen.layout.recorded.toNat = frozen.buffer.size

theorem LiveFrame.FrozenTo.congr {least : UInt32} {frozen copy : FrozenFrame} (same : frozen.offChain = copy.offChain)
    (made : live.FrozenTo least copy) : live.FrozenTo least frozen := by
  have off : live.FrozenTo least copy.offChain := ⟨made.resumeAt, made.delivery, made.extent, made.recorded⟩
  rw [← same] at off
  exact ⟨off.resumeAt, off.delivery, off.extent, off.recorded⟩

namespace Freezer
open Store

variable {freezer after : Freezer} {roster : Roster} {memory : Memory} {place : Nat → Word} {limit : Word}
  {visited : Nat} {answer : Option Chain}

private theorem chainMembers_of_added {handles : List Handle} {chain : Chain}
    (valid : Valid after.store (roster.add handles))
    (named : Chain.of? handles = some chain) : after.chainMembers chain.head = .ok handles.reverse := by
  obtain ⟨inner, rfl, _⟩ := Chain.leads_of_of? named
  have member : inner ++ [chain.head] ∈ (roster.add (inner ++ [chain.head])).chains :=
    Roster.mem_chains_add.mpr (.inl ⟨rfl, by simp⟩)
  rw [List.reverse_append]
  exact chainMembers_eq (valid.linked _ member) (valid.chain_distinct member)

/-- What a capture that returns has made: handles that named nothing before, for copies of the suspended frames. -/
structure Yields (freezer after : Freezer) (context : CaptureContext) (frames : List LiveFrame) (answer : Option Chain)
    (handles : List Handle) : Prop where
  named : answer = Chain.of? handles
  distinct : handles.Nodup
  fresh : ∀ handle ∈ handles, freezer.frame handle = .error (.refused (.stale handle))
  members : ∀ chain, answer = some chain → after.chainMembers chain.head = .ok handles.reverse
  captured : after.captured = freezer.captured + UInt64.ofNat handles.length
  held : List.Forall₂ (fun handle live => ∃ frozen copy earlier later, after.frame handle = .ok frozen ∧
      frozen.offChain = copy.frame.offChain ∧ Capture.Traced context earlier later [] live copy)
    handles (suspended frames)

theorem yields_of_capture (valid : Valid freezer.store roster)
    (done : freezer.capture memory place frames limit = .ok ((visited, answer), after)) :
    ∃ final handles, Capture.walk (freezer.contextOf memory place limit) {} frames = .ok (visited, final) ∧
      Yields freezer after (freezer.contextOf memory place limit) frames answer handles := by
  obtain ⟨final, handles, walked, rfl, installed, valid'⟩ := capture_spec valid done
  refine ⟨final, handles, walked, rfl, ?_, fun handle within => ?_, fun chain named => ?_, ?_, ?_⟩
  · by_cases none : handles = []
    · simp [none]
    · exact valid'.chain_distinct (Roster.mem_chains_add.mpr (.inl ⟨rfl, none⟩))
  · exact StoreM.frame_of_stale (installed.fresh handle within)
  · exact chainMembers_of_added valid' named
  · rw [(capture_counts valid done).captured, size_of?]
  · obtain ⟨sources, copies⟩ := Capture.copies_eq walked
    have held := installed.held
    rw [← copies, List.forall₂_map_right_iff, List.forall₂_iff_zip] at held
    obtain ⟨length, each⟩ := held
    rw [← sources, List.forall₂_map_right_iff, List.forall₂_iff_zip]
    refine ⟨length, @fun handle this paired => ?_⟩
    obtain ⟨frozen, known, same⟩ := Option.map_eq_some_iff.mp (each paired)
    obtain ⟨index, at_⟩ := List.getElem?_of_mem (List.of_mem_zip paired).2
    obtain ⟨copy, source, copied, here⟩ := Capture.copied_of_transits at_
    rw [here] at same
    exact ⟨frozen, copy, _, _, StoreM.frame_eq_ok.mpr known, same, Capture.traced_of_walk walked source copied⟩

private theorem frozenTo_of_traced {earlier later : List Shift} {places : List Nat} {copy : Copied}
    {frozen : FrozenFrame}
    (traced : Capture.Traced context earlier later places live copy) (same : frozen.offChain = copy.frame.offChain) :
    live.FrozenTo context.minArgBytes frozen := by
  obtain ⟨goesOn, waits⟩ := traced.told
  obtain ⟨extent, _, size, _⟩ := traced.extent
  have spans : live.sp.toNat + copy.frame.buffer.size =
      live.callerSp.toNat + max live.argBytes.toNat context.minArgBytes.toNat := by
    rw [size, ← LiveFrame.toNat_copiedArgs]
    exact (LiveFrame.extent_spec extent).2
  exact LiveFrame.FrozenTo.congr same ⟨goesOn, waits, spans, size.symm⟩

private theorem capture_unmarked (freezer : Freezer) (memory : Memory) (place : Nat → Word) (limit : Word)
    (unmarked : ∀ frame ∈ frames, frame.starts = false) :
    freezer.capture memory place frames limit = .ok ((frames.length, none), freezer) := by
  simp only [Freezer.capture, Capture.walk_unmarked unmarked]
  rfl

/-- A capture freezes exactly the longest run of suspendable frames from the first one that holds the mark. If there is
no such frame nothing happens, whatever other frames there are. If a foreign frame follows the run there is no chain.
Otherwise the chain has one new handle for each frame of the run, the outermost first, and what it names is that frame
frozen. -/
theorem Reachable.capture_selects (reachable : Reachable freezer) (memory : Memory) (place : Nat → Word)
    (frames : List LiveFrame) (limit : Word) :
    ((∀ frame ∈ frames, frame.starts = false) →
      freezer.capture memory place frames limit = .ok ((frames.length, none), freezer)) ∧
    ((∃ frame ∈ frames, frame.starts = true) → ∃ before run rest, Selects frames before run rest) ∧
    ∀ before run rest, Selects frames before run rest →
      ((∃ frame others, rest = frame :: others ∧ frame.kind = .foreign) →
        ∃ failure, freezer.capture memory place frames limit = .error failure) ∧
      ∀ visited answer after, freezer.capture memory place frames limit = .ok ((visited, answer), after) →
        (rest = [] ∨ ∃ frame others, rest = frame :: others ∧ frame.kind = .boundary) ∧
        ∃ chain members, answer = some chain ∧ chain.size = run.length ∧
          after.chainMembers chain.head = .ok members ∧ members.Nodup ∧
          (∀ handle ∈ members, freezer.frame handle = .error (.refused (.stale handle))) ∧
          List.Forall₂ (fun handle live => ∃ frozen, after.frame handle = .ok frozen ∧
            live.FrozenTo freezer.settings.minArgBytes frozen) members run.reverse ∧
          after.captured = freezer.captured + UInt64.ofNat run.length := by
  obtain ⟨roster, _, valid⟩ := reachable.history
  refine ⟨freezer.capture_unmarked memory place limit, exists_selects, fun before run rest selects => ?_⟩
  have follows : ∀ {visited answer after}, freezer.capture memory place frames limit = .ok ((visited, answer), after) →
      ∀ frame others, rest = frame :: others → frame.kind ≠ .foreign := fun done => by
    obtain ⟨_, _, walked, _⟩ := yields_of_capture valid done
    exact Capture.not_foreign_of_walk walked selects
  refine ⟨fun ⟨frame, others, next, foreign⟩ => ?_, fun visited answer after done => ⟨?_, ?_⟩⟩
  · cases outcome : freezer.capture memory place frames limit with
    | error failure => exact ⟨failure, rfl⟩
    | ok answer => exact absurd foreign (follows outcome frame others next)
  · cases left : rest with
    | nil => exact .inl rfl
    | cons frame others =>
      refine .inr ⟨frame, others, rfl, ?_⟩
      cases kind : frame.kind with
      | suspendable => exact absurd kind (selects.longest frame others left)
      | boundary => rfl
      | foreign => exact absurd kind (follows done frame others left)
  · obtain ⟨_, handles, _, yields⟩ := yields_of_capture valid done
    have held := yields.held
    rw [selects.suspended_eq] at held
    have length := held.length_eq
    obtain ⟨frame, others, rfl, _⟩ := selects.first
    obtain ⟨handle, more, rfl⟩ := List.exists_cons_of_length_pos (by rw [length]; simp)
    have named : answer = some ⟨handle, (handle :: more).getLast (by simp), (handle :: more).length⟩ := by
      rw [yields.named, Chain.of?, List.head?_cons, List.getLast?_eq_some_getLast (by simp)]
    refine ⟨_, _, named, length, yields.members _ named, List.nodup_reverse.mpr yields.distinct, ?_, ?_, ?_⟩
    · exact fun other within => yields.fresh other (List.mem_reverse.mp within)
    · refine List.rel_reverse (held.imp ?_)
      rintro other live ⟨frozen, copy, earlier, later, known, same, traced⟩
      exact ⟨frozen, known, frozenTo_of_traced traced same⟩
    · rw [yields.captured, length]

/-- Two frames to freeze, between frames without the mark and a boundary. A further frame that holds the mark comes
after the boundary. -/
def crossedWalk : List LiveFrame :=
  [{ sampleFrame 0xFE0 with kind := .foreign }, { sampleFrame 0xFF0 with holdsMark := false }, sampleFrame 0x1000,
    { sampleFrame 0x1010 with holdsMark := false }, { sampleFrame 0x1020 with kind := .boundary }, sampleFrame 0x1030]

private theorem selects_crossedWalk : Selects crossedWalk (crossedWalk.take 2) ((crossedWalk.drop 2).take 2)
    (crossedWalk.drop 4) where
  whole := rfl
  skipped := by simp [crossedWalk, LiveFrame.starts, sampleFrame]
  first := ⟨_, _, rfl, rfl⟩
  suspendable := by simp [crossedWalk, sampleFrame]
  longest := by simp [crossedWalk]

theorem Reachable.capture_selects_crossed : ∃ visited chain inner outer after,
    sample.capture .blank (fun i => 0xA000 + 256 * UInt64.ofNat i) crossedWalk 0x2000 =
        .ok ((visited, some chain), after) ∧
      chain.size = 2 ∧ after.captured = sample.captured + 2 ∧
      after.chainMembers chain.head = .ok [outer, inner] ∧
      (∃ frozen, after.frame inner = .ok frozen ∧ (sampleFrame 0x1000).FrozenTo 0 frozen) ∧
      ∃ frozen, after.frame outer = .ok frozen ∧
        ({ sampleFrame 0x1010 with holdsMark := false } : LiveFrame).FrozenTo 0 frozen := by
  have succeeds : (sample.capture .blank (fun i => 0xA000 + 256 * UInt64.ofNat i) crossedWalk 0x2000).isOk = true := by
    decide +kernel
  have selected := reachable_sample.capture_selects .blank (fun i => 0xA000 + 256 * UInt64.ofNat i) crossedWalk 0x2000
  have least : sample.settings.minArgBytes = 0 := by decide +kernel
  have run : ((crossedWalk.drop 2).take 2).reverse =
    [{ sampleFrame 0x1010 with holdsMark := false }, sampleFrame 0x1000] := rfl
  generalize sample.capture .blank (fun i => 0xA000 + 256 * UInt64.ofNat i) crossedWalk 0x2000 = outcome at *
  obtain _ | ⟨⟨visited, answer⟩, after⟩ := outcome
  · cases succeeds
  · obtain ⟨_, chain, members, rfl, size, listed, _, _, held, captured⟩ :=
      (selected.2.2 _ _ _ selects_crossedWalk).2 visited answer after rfl
    rw [run, least] at held
    cases held with | cons outer held =>
    cases held with | cons inner held =>
    cases held
    exact ⟨visited, chain, _, _, after, rfl, size, captured, listed, inner, outer⟩

end Freezer
end CallStacks.Frozen
