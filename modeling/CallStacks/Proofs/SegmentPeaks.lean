import CallStacks.Proofs.GreenRequests

/-! Growth does not pile up segments. As long as the growths after the first one need no more than the least segment
has room for, every segment behind the first is large enough for the next growth, wherever the cursor stands. So a
thread holds as many segments as it ever used at once, and growing back to an earlier depth allocates nothing. -/

namespace CallStacks.Green

variable {place : Nat → Word} {settings : Settings} {memory : Memory} {thread after : Thread} {move : Move} {peak : Nat}

/-- A growth of a thread that has segments fits the least segment. -/
def Move.Modest (memory : Memory) (thread : Thread) (move : Move) : Prop :=
  ∀ argBytes stubSp caller, move.asks? memory = some (.grow argBytes, stubSp, caller) → thread.Held →
    argBytes.toNat + 0x30 ≤ thread.settings.minSegment.toNat

/-- A list of which so many segments were used at once holds just these, and each but the first has the least size. -/
structure SegmentList.Thrifty (list : SegmentList) (least : Word) (peak : Nat) : Prop where
  held : list.segments.length = peak
  reached : list.next ≤ peak
  large : ∀ segment ∈ list.segments.tail, least ≤ segment.size

namespace Ledger.Tells

variable {list : SegmentList} {ledger : Ledger}

private theorem next_eq_zero (tells : ledger.Tells list) (empty : list.segments = []) : list.next = 0 :=
  SegmentList.next_eq_zero_iff.mpr (tells.cursor_eq_none_iff.mpr empty)

private theorem next_pos (tells : ledger.Tells list) (held : list.segments ≠ []) : 0 < list.next :=
  Nat.pos_of_ne_zero fun none => held (tells.cursor_eq_none_iff.mp (SegmentList.next_eq_zero_iff.mp none))

end Ledger.Tells

namespace SegmentM

variable {list after : SegmentList} {size redZone : Word} {segment : Segment}

private theorem advance_of_empty (empty : list.segments = []) (unused : list.next = 0)
    (advanced : advance place size redZone list = .ok segment after) :
    after.segments = [segment] ∧ after.next = 1 := by
  obtain ⟨moved, ⟨known, _⟩ | ⟨_, _, grown, _⟩⟩ := of_advance advanced
  · simp [empty] at known
  · rw [empty, unused] at grown
    exact ⟨grown, moved.trans (by rw [unused])⟩

/-- An advance by a size that all segments past the first one have uses the next one again, and allocates only where
there is none. -/
theorem advance_of_large (used : 0 < list.next) (within : list.next ≤ list.segments.length)
    (large : ∀ segment ∈ list.segments.tail, size ≤ segment.size)
    (advanced : advance place size redZone list = .ok segment after) :
    after.next = list.next + 1 ∧
      (list.next < list.segments.length ∧ after.segments = list.segments ∧ after.allocated = list.allocated ∨
        list.next = list.segments.length ∧ segment.size = size ∧ after.segments = list.segments ++ [segment]) := by
  obtain ⟨moved, ⟨known, _, same, counted⟩ | ⟨missing, sized, grown, _⟩⟩ := of_advance advanced
  · exact ⟨moved, .inl ⟨(List.getElem?_eq_some_iff.mp known).1, same, counted⟩⟩
  have last : list.next = list.segments.length := by
    refine Nat.le_antisymm within (Nat.le_of_not_lt fun inside => ?_)
    have small := SegmentList.reusable?_eq_none_iff.mp missing _ (List.getElem?_eq_getElem inside)
    -- The cursor is at a segment, so the one after it is not the first, which alone may be small.
    have behind : list.segments[list.next] ∈ list.segments.tail := by
      refine List.mem_iff_getElem.mpr ⟨list.next - 1, by rw [List.length_tail]; omega, ?_⟩
      rw [List.getElem_tail]
      congr 1
      omega
    exact UInt64.not_le.mpr small (large _ behind)
  rw [last, List.insertIdx_length_self] at grown
  exact ⟨moved, .inr ⟨last, sized, grown⟩⟩

end SegmentM

namespace SegmentList.Thrifty

variable {list after : SegmentList} {ledger : Ledger} {size least redZone : Word} {segment : Segment}

private theorem of_empty (tells : ledger.Tells list) (empty : list.segments = []) (least : Word) :
    list.Thrifty least 0 :=
  ⟨by rw [empty]; rfl, Nat.le_of_eq (tells.next_eq_zero empty), by simp [empty]⟩

private theorem first (thrifty : list.Thrifty least peak) (tells : ledger.Tells list) (empty : list.segments = [])
    (advanced : SegmentM.advance place size redZone list = .ok segment after) :
    after.Thrifty least (max peak after.next) ∧ peak < after.next := by
  obtain ⟨only, one⟩ := SegmentM.advance_of_empty empty (tells.next_eq_zero empty) advanced
  obtain rfl : 0 = peak := by simpa [empty] using thrifty.held
  rw [one]
  exact ⟨⟨by rw [only]; rfl, Nat.le_of_eq one, by simp [only]⟩, Nat.one_pos⟩

/-- A further segment of the least size is there up to the peak, and comes to the end of the list beyond. -/
theorem further (thrifty : list.Thrifty least peak) (tells : ledger.Tells list) (held : list.segments ≠ [])
    (advanced : SegmentM.advance place least redZone list = .ok segment after) :
    after.Thrifty least (max peak after.next) ∧
      (after.next ≤ peak → after.segments = list.segments ∧ after.allocated = list.allocated) := by
  have all := thrifty.held
  have within := thrifty.reached
  obtain ⟨moved, ⟨inside, same, counted⟩ | ⟨last, sized, grown⟩⟩ :=
    SegmentM.advance_of_large (tells.next_pos held) (all ▸ within) thrifty.large advanced
  · have low : after.next ≤ peak := by omega
    rw [Nat.max_eq_left low]
    exact ⟨⟨same ▸ all, low, same ▸ thrifty.large⟩, fun _ => ⟨same, counted⟩⟩
  · have high : after.next = peak + 1 := by omega
    rw [high, Nat.max_eq_right (Nat.le_succ _)]
    refine ⟨⟨by rw [grown, List.length_append, all]; rfl, Nat.le_of_eq high, ?_⟩, fun low => by omega⟩
    rw [grown, List.tail_append_of_ne_nil held]
    intro other within
    rcases List.mem_append.mp within with within | within
    · exact thrifty.large other within
    · exact List.mem_singleton.mp within ▸ sized ▸ UInt64.le_refl _

private theorem back (thrifty : list.Thrifty least peak) (same : after.segments = list.segments)
    (low : after.next ≤ list.next) : after.Thrifty least (max peak after.next) := by
  have low := Nat.le_trans low thrifty.reached
  rw [Nat.max_eq_left low]
  exact ⟨same ▸ thrifty.held, low, same ▸ thrifty.large⟩

end SegmentList.Thrifty

namespace Thread

private theorem segmentSize_of_modest {argBytes : Word}
    (modest : argBytes.toNat + 0x30 ≤ thread.settings.minSegment.toNat) :
    thread.segmentSize argBytes false = some thread.settings.minSegment := by
  obtain ⟨whole, exact, sized⟩ := thread.segmentSize_eq (Nat.lt_of_le_of_lt modest (UInt64.toNat_lt _)) false
  have small : whole ≤ thread.settings.minSegment := UInt64.le_iff_toNat_le.mpr (exact ▸ modest)
  rw [sized]
  change some (if thread.settings.minSegment ≤ whole then whole else thread.settings.minSegment) = _
  split
  next large => rw [UInt64.le_antisymm small large]
  next => rfl

/-- A step that gives no segments back keeps to what was used at once before, or allocates what it uses beyond. -/
theorem Shifts.thrifty (shifts : thread.Shifts place memory move after) (sound : thread.Sound)
    (thrifty : thread.segments.Thrifty thread.settings.minSegment peak) (kept : ¬ move.Frees thread)
    (modest : move.Modest memory thread) :
    after.segments.Thrifty after.settings.minSegment (max peak after.segments.next) ∧ (after.segments.next ≤ peak →
      after.segments.segments = thread.segments.segments ∧ after.segments.allocated = thread.segments.allocated) := by
  obtain ⟨ledger, tells⟩ := sound.told
  cases shifts with
  | @grown argBytes stubSp caller asked grown =>
    obtain ⟨size, segment, sized, advanced⟩ := grown.advanced
    have settings : after.settings = thread.settings := by rw [grown.kept]
    rw [settings]
    -- The first growth may ask for any size. Those after it are modest and ask for the least.
    by_cases empty : thread.segments.segments = []
    · obtain ⟨thrifty, high⟩ := thrifty.first tells empty advanced
      exact ⟨thrifty, fun low => absurd high (Nat.not_lt.mpr low)⟩
    · have more : thread.segments.current?.isNone = false := by simpa using tells.current?_isSome_iff.mpr empty
      rw [more, segmentSize_of_modest (modest argBytes stubSp caller asked empty)] at sized
      cases sized
      exact thrifty.further tells empty advanced
  | boarded idle boards =>
    obtain ⟨size, segment, list, advanced, rfl⟩ := boards
    have empty : thread.segments.segments = [] := not_not.mp fun held => idle (.inr held)
    obtain ⟨thrifty, high⟩ := thrifty.first tells empty advanced
    exact ⟨thrifty, fun low => absurd high (Nat.not_lt.mpr low)⟩
  | emptied frees => exact absurd frees kept
  | stayed settings os segments back =>
    rw [settings]
    exact ⟨thrifty.back (by rw [segments]) back, fun _ => ⟨by rw [segments], by rw [segments]⟩⟩

end Thread

namespace Moment

variable {first moment next : Moment} {program : Program}

/-- A part of a run that starts with no segments and gives none back, where growths are modest once there are
segments. It counts the segments that it used at once at most. -/
inductive Since (place : Nat → Word) (first : Moment) : Nat → Moment → Prop
  | empty (none : first.thread.segments.segments = []) : Since place first 0 first
  | step {peak : Nat} {moment after : Moment} {move : Move} (past : Since place first peak moment)
      (step : Step place move moment after) (kept : ¬ move.Frees moment.thread)
      (modest : move.Modest moment.run.world.memory moment.thread) :
      Since place first (max peak after.thread.segments.next) after

theorem Since.leads (since : Since place first peak moment) : Leads place first moment := by
  induction since with
  | empty => exact .refl
  | step _ step _ _ ih => exact ih.tail ⟨_, step⟩

theorem Since.thrifty (since : Since place first peak moment) (sound : first.Sound) :
    moment.Sound ∧ moment.thread.segments.Thrifty moment.thread.settings.minSegment peak := by
  induction since with
  | empty none =>
    obtain ⟨ledger, tells⟩ := sound.run.thread.told
    exact ⟨sound, .of_empty tells none _⟩
  | step _ step kept modest ih =>
    obtain ⟨sound, thrifty⟩ := ih
    exact ⟨(step.passes sound).1, ((step.shifts sound).thrifty sound.run.thread thrifty kept modest).1⟩

/-- Since a thread had no segments, it holds as many as it used at once at most. A step that uses no more than that
allocates nothing. -/
theorem held_eq_peak (reached : Leads place (start settings memory program) first)
    (since : Since place first peak moment) :
    moment.thread.segments.segments.length = peak ∧
      ∀ move next, Step place move moment next → ¬ move.Frees moment.thread →
        move.Modest moment.run.world.memory moment.thread → next.thread.segments.next ≤ peak →
          next.thread.segments.segments = moment.thread.segments.segments ∧
            next.thread.segments.allocated = moment.thread.segments.allocated := by
  obtain ⟨sound, thrifty⟩ := since.thrifty reached.settled.1
  refine ⟨thrifty.held, fun move next step kept modest low => ?_⟩
  exact ((step.shifts sound).thrifty sound.run.thread thrifty kept modest).2 low

def slight : Operation := .allocate (.grow 0x40) 0x9000 {} false

private theorem modest_slight (reached : Leads place (start settings memory program) moment)
    (room : 0x70 ≤ settings.minSegment.toNat) :
    Move.Modest moment.run.world.memory moment.thread (.perform slight) := by
  intro argBytes stubSp caller asked _
  cases asked
  rwa [(reached.noted .start (Thread.Noted.fresh settings)).2.configured]

/-- A function on a green stack grows it, goes back and grows it again. -/
def growAgain : Program :=
  .enterGreen ⟨1, none, .native 0x9000⟩ (.perform slight (.perform .release (.perform slight .done))) .done

private theorem since_growAgain {inside grown back : Run} (room : 0x70 ≤ settings.minSegment.toNat)
    (started : Call.startGreen place 0 ⟨1, none, .native 0x9000⟩ (start settings memory growAgain).run =
      .ok (.ok ()) inside)
    (further : slight.run place 1 inside = .ok () grown)
    (released : Operation.release.run place 1 grown = .ok () back) :
    Since place (start settings memory growAgain)
      (max (max (max 0 inside.world.thread.segments.next) grown.world.thread.segments.next)
        back.world.thread.segments.next)
      ⟨.perform slight .done, [.green ⟨1, none, .native 0x9000⟩ .done], back⟩ := by
  have first : Since place (start settings memory growAgain) _
      ⟨.perform slight (.perform .release (.perform slight .done)), [.green ⟨1, none, .native 0x9000⟩ .done], inside⟩ :=
    .step (.empty rfl) (.enterGreen started) id fun _ _ _ asked => by cases asked
  have second : Since place (start settings memory growAgain) _
      ⟨.perform .release (.perform slight .done), [.green ⟨1, none, .native 0x9000⟩ .done], grown⟩ :=
    .step first (.perform further) id (modest_slight first.leads room)
  exact .step second (.perform released) id fun _ _ _ asked => by cases asked

/-- It holds two segments then, and takes no third one. -/
theorem held_eq_peak_again : ∃ moment next : Moment,
    Since (fun index => bif index == 0 then 0x100000 else 0x200000) (start {} .blank growAgain) 2 moment ∧
    Step (fun index => bif index == 0 then 0x100000 else 0x200000) (.perform slight) moment next ∧
    moment.thread.segments.next = 1 ∧ moment.thread.segments.segments.length = 2 ∧
    next.thread.segments.next = 2 ∧ next.thread.segments.allocated = moment.thread.segments.allocated := by
  have room : 0x70 ≤ ({} : Settings).minSegment.toNat := by decide
  have since : Since _ _ 2 _ :=
    @since_growAgain (fun index => bif index == 0 then 0x100000 else 0x200000) {} .blank _ _ _ room rfl rfl rfl
  obtain ⟨held, still⟩ := held_eq_peak .refl since
  obtain ⟨_, same⟩ := still _ _ (.perform rfl) id (modest_slight since.leads room) (Nat.le_refl 2)
  exact ⟨_, _, since, .perform rfl, rfl, held, rfl, same⟩

end Moment
end CallStacks.Green
