import CallStacks.Proofs.StackSnapshots

/-! Where a growth lands. A segment is chosen with room for the arguments, the home area and one alignment step, so
that the new stack pointer, rounded down, is still above the red zone, however the bounds of the segment are aligned.
The stub is told those bounds, the arguments are carried over, and no other byte of memory changes. -/

namespace CallStacks

theorem Word.alignDown_stackAlign (sp : Word) : 16 ∣ (alignDown sp Green.stackAlign).toNat ∧
    (alignDown sp Green.stackAlign).toNat ≤ sp.toNat ∧ sp.toNat < (alignDown sp Green.stackAlign).toNat + 16 := by
  refine ⟨dvd_alignDown sp Green.stackAlign, ?_⟩
  have rounded := toNat_alignDown sp Green.stackAlign
  change _ = sp.toNat - sp.toNat % 16 at rounded
  omega

namespace Memory

variable {memory : Memory} {start source target first second addr : Word} {count skip : Nat}

private theorem bytes_write_part (memory : Memory) (start : Word) (block : List UInt8)
    (inside : skip + count ≤ block.length)
    (fits : block.length ≤ UInt64.size) :
    (memory.write start block.toArray).bytes (start + UInt64.ofNat skip) count = (block.drop skip).take count := by
  apply List.ext_getElem
  · rw [length_bytes, List.length_take, List.length_drop]
    omega
  intro i within _
  rw [length_bytes] at within
  have distance : (start + UInt64.ofNat skip + UInt64.ofNat i - start).toNat = skip + i := by
    rw [UInt64.add_assoc, UInt64.add_comm start, UInt64.add_sub_cancel, ← UInt64.ofNat_add, UInt64.toNat_ofNat']
    exact Nat.mod_eq_of_lt (Nat.lt_of_lt_of_le (by omega) fits)
  have covered : (start + UInt64.ofNat skip + UInt64.ofNat i - start).toNat < block.toArray.size := by
    rw [distance, List.size_toArray]
    omega
  rw [getElem_bytes, byte_write, dif_pos covered]
  simp only [distance, List.getElem_toArray, List.getElem_take, List.getElem_drop]

private theorem word_writeWords (memory : Memory) (start first second : Word) :
    (memory.writeWords start [first, second]).word start = first ∧
      (memory.writeWords start [first, second]).word (start + 8) = second := by
  have block : [first, second].flatMap Word.toBytes = first.toBytes ++ second.toBytes := by simp
  have length : (first.toBytes ++ second.toBytes).length = 16 := by simp
  have fits : (first.toBytes ++ second.toBytes).length ≤ UInt64.size := length ▸ by decide
  have lower := @bytes_write_part 8 0 memory start _ (length ▸ by decide) fits
  have upper := @bytes_write_part 8 8 memory start _ (length ▸ by decide) fits
  rw [List.drop_zero, List.take_left' (Word.length_toBytes first), show UInt64.ofNat 0 = 0 from rfl,
    UInt64.add_zero] at lower
  rw [List.drop_left' (Word.length_toBytes first), List.take_of_length_le (by simp)] at upper
  rw [writeWords, block]
  constructor
  · rw [word, lower, Word.ofBytes_toBytes]
  · exact (congrArg Word.ofBytes upper).trans (Word.ofBytes_toBytes second)

private theorem byte_writeWords_outside (outside : 16 ≤ (addr - start).toNat) :
    (memory.writeWords start [first, second]).byte addr = memory.byte addr :=
  byte_write_outside memory start _ (by simpa using outside)

private theorem bytes_copy (memory : Memory) (source target : Word) (fits : count ≤ UInt64.size) :
    (memory.copy source target count).bytes target count = memory.bytes source count := by
  have read := memory.bytes_write target (memory.bytes source count) (by rwa [length_bytes])
  rwa [length_bytes] at read

private theorem byte_copy_outside (outside : count ≤ (addr - target).toNat) :
    (memory.copy source target count).byte addr = memory.byte addr :=
  byte_write_outside memory target _ (by simpa using outside)

end Memory

namespace Green

namespace Segment

variable {segment : Segment}

/-- The segment ends inside the address space, as every block does that is allocated. -/
def Whole (segment : Segment) : Prop :=
  segment.start.toNat + segment.redZone.toNat + segment.size.toNat < UInt64.size

instance (segment : Segment) : Decidable segment.Whole := inferInstanceAs (Decidable (_ < _))

theorem Whole.toNat_limit (whole : segment.Whole) :
    segment.limit.toNat = segment.start.toNat + segment.redZone.toNat := by
  rw [limit, UInt64.toNat_add]
  exact Nat.mod_eq_of_lt (Nat.lt_of_le_of_lt (Nat.le_add_right _ _) whole)

theorem Whole.toNat_base (whole : segment.Whole) : segment.base.toNat = segment.limit.toNat + segment.size.toNat := by
  have limit := whole.toNat_limit
  change (segment.limit + segment.size).toNat = _
  rw [UInt64.toNat_add]
  exact Nat.mod_eq_of_lt (limit ▸ whole)

end Segment

/-- What the allocator promises of its blocks: those that the thread has, and the one that a growth for the given
arguments would make. -/
structure Thread.Housed (place : Nat → Word) (argBytes : Word) (thread : Thread) : Prop where
  held : ∀ segment ∈ thread.segments.segments, segment.Whole
  next : ∀ size segment, thread.segmentSize argBytes thread.segments.current?.isNone = some size →
    Segment.make (place thread.segments.allocated) size thread.settings.redZone = .ok segment → segment.Whole

/-- A stack pointer at which a call can start on a stack with the given bounds: aligned, above the red zone, and with
the home area and the arguments below the end. -/
structure StackRange.Fits (range : StackRange) (sp argBytes : Word) : Prop where
  aligned : 16 ∣ sp.toNat
  above : range.limit < sp
  below : sp.toNat + StubFrame.shadowStore.toNat + argBytes.toNat ≤ range.base.toNat

/-- The bounds leave out the places that are written in the stub's frame, and the arguments of its caller. -/
structure StackRange.Clear (range : StackRange) (stubSp argBytes : Word) : Prop where
  stub : ∀ i < 16, range.has (stubSp - StubFrame.newRangeBelow + UInt64.ofNat i) = false
  arguments : ∀ i < argBytes.toNat, range.has (stubSp + StubFrame.argsAbove + UInt64.ofNat i) = false

/-- What serving a growth makes of memory: the bounds stand in the stub's frame, the arguments above the home area of
the new stack, and every other byte is as it was. -/
structure Switch.Carried (switch : Switch) (stubSp : Word) (memory after : Memory) : Prop where
  limit : after.word (stubSp - StubFrame.newRangeBelow) = switch.range.limit
  base : after.word (stubSp - StubFrame.newRangeBelow + 8) = switch.range.base
  arguments : after.bytes (switch.sp + StubFrame.shadowStore) switch.argBytes.toNat =
    memory.bytes (stubSp + StubFrame.argsAbove) switch.argBytes.toNat
  others : ∀ addr, 16 ≤ (addr - (stubSp - StubFrame.newRangeBelow)).toNat →
    switch.argBytes.toNat ≤ (addr - (switch.sp + StubFrame.shadowStore)).toNat → after.byte addr = memory.byte addr

/-- A growth has gone on to the segment in use, and fits it. -/
structure Switch.Lands (switch : Switch) (argBytes : Word) (after : Thread) : Prop where
  current : after.segments.current?.map (·.range) = some switch.range
  carries : switch.argBytes = argBytes
  fits : switch.range.Fits switch.sp argBytes

def Refusal.Unfit (refusal : Refusal) : Prop := ∃ size redZone, refusal = .invalidSegmentSize size redZone

variable {place : Nat → Word} {argBytes stubSp size redZone : Word} {thread : Thread} {ledger : Ledger}

/-- The least size, or what the arguments, the home area and one alignment step take. -/
theorem Thread.segmentSize_eq (thread : Thread) (room : argBytes.toNat + 48 < UInt64.size) (first : Bool) :
    ∃ whole, whole.toNat = argBytes.toNat + 48 ∧ thread.segmentSize argBytes first =
      some (max (if first then thread.settings.initialSegment else thread.settings.minSegment) whole) := by
  have home : Word.add? argBytes StubFrame.shadowStore = some (argBytes + StubFrame.shadowStore) :=
    if_pos (Nat.lt_trans (by change _ + 32 < _ + 48; omega) room)
  have sum : (argBytes + StubFrame.shadowStore).toNat = argBytes.toNat + 32 := (Word.add?_eq_some_iff.mp home).2
  have aligned : Word.add? (argBytes + StubFrame.shadowStore) stackAlign =
      some (argBytes + StubFrame.shadowStore + stackAlign) :=
    if_pos (by rw [sum]; exact room)
  refine ⟨_, ?_, by rw [segmentSize, home, Option.bind_some, aligned, Option.map_some]⟩
  rw [(Word.add?_eq_some_iff.mp aligned).2, sum]
  rfl

theorem Thread.segmentSize_fits (thread : Thread) (few : argBytes.toNat < 0x80000000) (first : Bool) :
    ∃ size, thread.segmentSize argBytes first = some size ∧ argBytes.toNat + 48 ≤ size.toNat := by
  have room : argBytes.toNat + 48 < UInt64.size := by
    change _ < 2 ^ 64
    omega
  obtain ⟨whole, exact, sized⟩ := thread.segmentSize_eq room first
  refine ⟨_, sized, ?_⟩
  rw [← exact, ← UInt64.le_iff_toNat_le]
  exact Word.le_max_right _ _

namespace SegmentM

private theorem advance_gives {list : SegmentList} (tells : ledger.Tells list)
    (held : ∀ segment ∈ list.segments, segment.Whole)
    (next : ∀ segment, Segment.make (place list.allocated) size redZone = .ok segment → segment.Whole) :
    Ends (fun segment after => after.current? = some segment ∧ size ≤ segment.size ∧ segment.Whole)
      (fun refusal _ => refusal.Unfit) (advance place size redZone list) := by
  cases found : list.reusable? size with
  | some spare =>
    obtain ⟨known, room⟩ := Option.filter_eq_some_iff.mp found
    rw [advance_reuse found]
    exact ⟨known, by simpa using room, held spare (List.mem_of_getElem? known)⟩
  | none =>
    cases made : Segment.make (place list.allocated) size redZone with
    | error refusal =>
      rw [advance_unfit found made]
      exact ⟨size, redZone, (Segment.make_eq_error_iff.mp made).2⟩
    | ok segment =>
      obtain ⟨used, kept, split, depth, _⟩ := tells.parts
      have within : list.next ≤ list.segments.length := by
        rw [depth, split, List.length_append]
        omega
      rw [advance_allocate found made]
      refine ⟨?_, (Segment.make_eq_ok_iff.mp made).2.2 ▸ UInt64.le_refl size, next segment made⟩
      change (list.segments.insertIdx list.next segment)[list.next]? = some segment
      rw [List.getElem?_insertIdx_self, if_pos within]

end SegmentM

/-- Below the end of a segment with room for it there is a place for the home area and the arguments, and rounding
that down does not leave the segment. -/
theorem Segment.Whole.fits {segment : Segment} (whole : segment.Whole)
    (room : argBytes.toNat + 48 ≤ segment.size.toNat) :
    ∃ sp, Word.sub? segment.base (argBytes + StubFrame.shadowStore) = some sp ∧
      segment.range.Fits (Word.alignDown sp stackAlign) argBytes := by
  have end_ := whole.toNat_base
  have small := segment.size.toNat_lt
  have need : (argBytes + StubFrame.shadowStore).toNat = argBytes.toNat + 32 := by
    rw [UInt64.toNat_add]
    exact Nat.mod_eq_of_lt (by change _ + 32 < _; omega)
  have below : Word.sub? segment.base (argBytes + StubFrame.shadowStore) =
      some (segment.base - (argBytes + StubFrame.shadowStore)) :=
    if_pos (by rw [UInt64.le_iff_toNat_le]; omega)
  have place := (Word.sub?_eq_some_iff.mp below).2
  obtain ⟨aligned, lower, near⟩ := Word.alignDown_stackAlign (segment.base - (argBytes + StubFrame.shadowStore))
  -- Rounding down takes less than sixteen bytes, and sixteen are left over.
  refine ⟨_, below, aligned, ?_, ?_⟩
  · rw [UInt64.lt_iff_toNat_lt]
    change segment.limit.toNat < _
    omega
  · change _ + 32 + _ ≤ segment.base.toNat
    omega

namespace ThreadM

theorem inRange_step {α β : Type} {done : α → Thread → Prop} {failed : Failure → Thread → Prop} {value : Option β}
    {next : β → ThreadM α} {result : β} (known : value = some result) (rest : Ends done failed (next result thread)) :
    Ends done failed ((inRange value >>= next) thread) := by
  rw [known]
  exact rest

private theorem switchToSegment_lands (tells : ledger.Tells thread.segments) (housed : thread.Housed place argBytes)
    (few : argBytes.toNat < 0x80000000) (low : stubSp.toNat + StubFrame.size.toNat < UInt64.size) (caller : StackRange) :
    Ends (fun (sp, range) after => after.segments.current?.map (·.range) = some range ∧ range.Fits sp argBytes)
      (fun failure _ => ∃ refusal : Refusal, failure = .refused refusal ∧ refusal.Unfit)
      (switchToSegment place argBytes stubSp caller thread) := by
  obtain ⟨size, sized, room⟩ := thread.segmentSize_fits few thread.segments.current?.isNone
  have given := SegmentM.advance_gives tells housed.held fun segment => housed.next size segment sized
  refine .step rfl (inRange_step sized (segments_bind ?_ fun segment list advanced => ?_))
  · exact fun refusal list refused => ⟨refusal, rfl, given.of_error refused⟩
  obtain ⟨current, large, whole⟩ := given.of_ok advanced
  rw [UInt64.le_iff_toNat_le] at large
  obtain ⟨sp, below, fits⟩ := whole.fits (Nat.le_trans room large)
  have range : list.current?.map (·.range) = some segment.range := by rw [current, Option.map_some]
  split
  next => exact inRange_step (if_pos low) (.step rfl (inRange_step below ⟨range, fits⟩))
  next => exact inRange_step below ⟨range, fits⟩

private theorem allocate_lands (tells : ledger.Tells thread.segments) (housed : thread.Housed place argBytes)
    (few : argBytes.toNat < 0x80000000) (low : stubSp.toNat + StubFrame.size.toNat < UInt64.size) (caller : StackRange) :
    Ends (fun switch after => switch.Lands argBytes after ∧ switch.argsFrom = stubSp + StubFrame.argsAbove ∧
        switch.argsTo = switch.sp + StubFrame.shadowStore)
      (fun failure _ => ∃ refusal : Refusal, failure = .refused refusal ∧ refusal.Unfit)
      (allocate place (.grow argBytes) stubSp caller thread) := by
  refine (switchToSegment_lands tells housed few low caller).bind ?_
  rintro ⟨sp, range⟩ after ⟨current, fits⟩
  have top := range.base.toNat_lt
  have source : Word.add? stubSp StubFrame.argsAbove = some (stubSp + StubFrame.argsAbove) :=
    if_pos (by change stubSp.toNat + 0xe8 < _ at low; change _ + 0x60 < _; omega)
  have target : Word.add? sp StubFrame.shadowStore = some (sp + StubFrame.shadowStore) :=
    if_pos (by have below := fits.below; change _ < 2 ^ 64; omega)
  exact inRange_step source (inRange_step target ⟨⟨current, rfl, fits⟩, rfl, rfl⟩)

end ThreadM

theorem StackRange.Fits.has {range : StackRange} {sp addr : Word} (fits : range.Fits sp argBytes)
    (inside : (addr - (sp + StubFrame.shadowStore)).toNat < argBytes.toNat) : range.has addr = true := by
  obtain ⟨-, above, below⟩ := fits
  have top := range.base.toNat_lt
  have target : (sp + StubFrame.shadowStore).toNat = sp.toNat + StubFrame.shadowStore.toNat := by
    rw [UInt64.toNat_add]
    exact Nat.mod_eq_of_lt (by omega)
  have place : addr.toNat = sp.toNat + StubFrame.shadowStore.toNat + (addr - (sp + StubFrame.shadowStore)).toNat := by
    have sum := congrArg UInt64.toNat (UInt64.sub_add_cancel addr (sp + StubFrame.shadowStore))
    rw [UInt64.toNat_add, target, Nat.mod_eq_of_lt (by omega)] at sum
    omega
  rw [UInt64.lt_iff_toNat_lt] at above
  rw [StackRange.has, Bool.and_eq_true, decide_eq_true_eq, decide_eq_true_eq, UInt64.le_iff_toNat_le,
    UInt64.lt_iff_toNat_lt]
  omega

theorem Switch.carried {switch : Switch} {memory : Memory} (fits : switch.range.Fits switch.sp switch.argBytes)
    (few : switch.argBytes.toNat < 0x80000000) (clear : switch.range.Clear stubSp switch.argBytes)
    (source : switch.argsFrom = stubSp + StubFrame.argsAbove)
    (target : switch.argsTo = switch.sp + StubFrame.shadowStore) :
    switch.Carried stubSp memory (switch.copyArguments
      (memory.writeWords (stubSp - StubFrame.newRangeBelow) [switch.range.limit, switch.range.base])) := by
  rw [copyArguments, source, target]
  generalize told : memory.writeWords (stubSp - StubFrame.newRangeBelow)
    [switch.range.limit, switch.range.base] = between
  obtain ⟨limit, base⟩ := memory.word_writeWords (stubSp - StubFrame.newRangeBelow) switch.range.limit switch.range.base
  have apart : ∀ i < 16, switch.argBytes.toNat ≤
      (stubSp - StubFrame.newRangeBelow + UInt64.ofNat i - (switch.sp + StubFrame.shadowStore)).toNat := by
    intro i within
    apply Nat.le_of_not_lt
    intro inside
    exact Bool.false_ne_true ((clear.stub i within).symm.trans (fits.has inside))
  have untouched : ∀ skip, skip + 8 ≤ 16 →
      (between.copy (stubSp + StubFrame.argsAbove) (switch.sp + StubFrame.shadowStore) switch.argBytes.toNat).word
        (stubSp - StubFrame.newRangeBelow + UInt64.ofNat skip) =
      between.word (stubSp - StubFrame.newRangeBelow + UInt64.ofNat skip) := fun skip within => by
    refine congrArg Word.ofBytes (Memory.bytes_write_outside _ _ _ _ _ fun i inside => ?_)
    rw [UInt64.add_assoc, ← UInt64.ofNat_add, List.size_toArray, Memory.length_bytes]
    exact apart (skip + i) (by omega)
  rw [told] at limit base
  refine ⟨?_, (untouched 8 (by decide)).trans base, ?_, fun addr stub stack => ?_⟩
  · have first := untouched 0 (by decide)
    rw [show UInt64.ofNat 0 = 0 from rfl, UInt64.add_zero] at first
    exact first.trans limit
  · rw [Memory.bytes_copy _ _ _ (by change _ ≤ 2 ^ 64; omega), ← told]
    refine Memory.bytes_write_outside _ _ _ _ _ fun i inside => ?_
    have distance : stubSp + StubFrame.argsAbove + UInt64.ofNat i - (stubSp - StubFrame.newRangeBelow) =
        UInt64.ofNat (112 + i) := by
      rw [UInt64.ofNat_add]
      change stubSp + 0x60 + _ - (stubSp - 0x10) = 0x70 + _
      grind
    rw [distance, UInt64.toNat_ofNat_of_lt' (by change _ < 2 ^ 64; omega)]
    have size : ([switch.range.limit, switch.range.base].flatMap Word.toBytes).toArray.size = 16 := by simp
    omega
  · rw [Memory.byte_copy_outside stack, ← told, Memory.byte_writeWords_outside stub]

theorem Request.decode_of_nonneg {size : Int32} (wanted : 0 ≤ size) :
    decode size = .grow (UInt64.ofNat size.toInt.toNat) := if_neg (Int32.not_lt.mpr wanted)

theorem ThreadM.serve_lands {size : Int32} (tells : ledger.Tells thread.segments)
    (housed : thread.Housed place argBytes)
    (few : argBytes.toNat < 0x80000000) (decoded : Request.decode size = .grow argBytes)
    (high : StubFrame.oldRangeBelow ≤ stubSp) (low : stubSp.toNat + StubFrame.size.toNat < UInt64.size)
    (memory : Memory) :
    Ends (fun (switch, told) after => switch.Lands argBytes after ∧
        (switch.range.Clear stubSp argBytes → switch.Carried stubSp memory told))
      (fun failure _ => ∃ refusal : Refusal, failure = .stopped (.fatal refusal) ∧ refusal.Unfit)
      (serve place size stubSp memory thread) := by
  have spilled : Word.sub? stubSp StubFrame.oldRangeBelow = some (stubSp - StubFrame.oldRangeBelow) := if_pos high
  have bounds : Word.sub? stubSp StubFrame.newRangeBelow = some (stubSp - StubFrame.newRangeBelow) := by
    refine if_pos (UInt64.le_trans ?_ high)
    decide
  refine inRange_step spilled (.bind ((insisting_ends (decoded ▸ allocate_lands tells housed few low _)).mono
    (fun _ _ landed => landed) ?_) ?_)
  · rintro _ _ ⟨_, rfl, refusal, rfl, unfit⟩
    exact ⟨refusal, rfl, unfit⟩
  · rintro switch after ⟨lands, source, target⟩
    refine inRange_step bounds ⟨lands, fun clear => ?_⟩
    obtain ⟨-, rfl, fits⟩ := lands
    exact Switch.carried fits few clear source target

namespace Moment

/-- A growth in any moment of a run lands inside the segment that it makes the one in use; it fails only for want of
a block of the size needed. The stub that asked for it finds the bounds and the arguments where they should be. -/
theorem growth_lands {settings : Settings} {memory : Memory} {program : Program} {moment : Moment} {size : Int32}
    (reached : Leads place (start settings memory program) moment) (wanted : 0 ≤ size)
    (housed : moment.thread.Housed place (Request.decode size).argBytes) (high : 0x20 ≤ stubSp)
    (low : stubSp.toNat + 0xe8 < UInt64.size) :
    (∀ caller switch after,
      ThreadM.allocate place (Request.decode size) stubSp caller moment.thread = .ok switch after →
      switch.argBytes.toNat = size.toInt.toNat ∧ 16 ∣ switch.sp.toNat ∧ switch.range.limit < switch.sp ∧
      switch.sp.toNat + 0x20 + switch.argBytes.toNat ≤ switch.range.base.toNat ∧
      after.segments.current?.map (·.range) = some switch.range) ∧
    (∀ caller failure after,
      ThreadM.allocate place (Request.decode size) stubSp caller moment.thread = .error failure after →
        ∃ bytes redZone, failure = .refused (.invalidSegmentSize bytes redZone)) ∧
    (∀ before switch told after, ThreadM.serve place size stubSp before moment.thread = .ok (switch, told) after →
      switch.Lands (Request.decode size).argBytes after ∧
      (switch.range.Clear stubSp (Request.decode size).argBytes → switch.Carried stubSp before told)) ∧
    ∀ before failure after, ThreadM.serve place size stubSp before moment.thread = .error failure after →
      ∃ bytes redZone, failure = .stopped (.fatal (.invalidSegmentSize bytes redZone)) := by
  obtain ⟨ledger, tells⟩ := reached.settled.1.run.thread.told
  have grows := Request.decode_of_nonneg wanted
  have count : (UInt64.ofNat size.toInt.toNat).toNat = size.toInt.toNat :=
    UInt64.toNat_ofNat_of_lt' (by have := size.toInt_lt; change _ < 2 ^ 64; omega)
  have few : (UInt64.ofNat size.toInt.toNat).toNat < 0x80000000 := by
    have := size.toInt_lt
    omega
  rw [grows] at housed ⊢
  refine ⟨fun caller switch after done => ?_, fun caller failure after failed => ?_,
    fun before switch told after done => ?_, fun before failure after failed => ?_⟩
  · obtain ⟨current, carries, aligned, above, below⟩ :=
      ((ThreadM.allocate_lands tells housed few low caller).of_ok done).1
    exact ⟨carries ▸ count, aligned, above, carries ▸ below, current⟩
  · obtain ⟨_, rfl, bytes, redZone, rfl⟩ := (ThreadM.allocate_lands tells housed few low caller).of_error failed
    exact ⟨bytes, redZone, rfl⟩
  · exact (ThreadM.serve_lands tells housed few grows high low before).of_ok done
  · obtain ⟨_, rfl, bytes, redZone, rfl⟩ := (ThreadM.serve_lands tells housed few grows high low before).of_error failed
    exact ⟨bytes, redZone, rfl⟩

/-- A function on a green stack grows it by a segment whose bounds are not aligned. -/
theorem growth_lands_unaligned : ∃ moment : Moment,
    Leads (fun number => 0x100000 + 0x1000 * UInt64.ofNat number) (start ⟨1, 5, 7⟩ .blank
      (.enterGreen ⟨1, none, .native 0x9000⟩ .done .done)) moment ∧
    ∃ switch told after, ThreadM.serve (fun number => 0x100000 + 0x1000 * UInt64.ofNat number) 100 0xa000 .blank
        moment.thread = .ok (switch, told) after ∧
      switch.range = ⟨0x101005, 0x101099⟩ ∧ switch.sp = 0x101010 ∧ switch.Lands 100 after ∧
      switch.Carried 0xa000 .blank told := by
  have reached : Leads (fun number => 0x100000 + 0x1000 * UInt64.ofNat number) (start ⟨1, 5, 7⟩ .blank
      (.enterGreen ⟨1, none, .native 0x9000⟩ .done .done)) _ := Step.leads (.enterGreen rfl)
  have housed : Thread.Housed (fun number => 0x100000 + 0x1000 * UInt64.ofNat number) 100
      { settings := ⟨1, 5, 7⟩, segments := ⟨[⟨0x100000, 5, 48⟩], some 0, 1⟩ } := by
    constructor
    · decide
    · intro size segment sized made
      cases sized
      cases made
      decide
  refine ⟨_, reached, _, _, _, rfl, rfl, rfl, ?_⟩
  obtain ⟨-, -, served, -⟩ := @growth_lands _ 0xa000 _ _ _ _ 100 reached (by decide) ⟨housed.held, housed.next⟩
    (by decide) (by decide)
  obtain ⟨lands, carried⟩ := served _ _ _ _ rfl
  exact ⟨lands, carried ⟨by decide +kernel, by decide +kernel⟩⟩

end Moment
end Green
end CallStacks
