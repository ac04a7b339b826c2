import CallStacks.Proofs.CaptureMoves
import CallStacks.Proofs.CopiedBytes

/-! Where the pointers of captured frames lead. The whole walk is compared with a plain description of
its result: each frame with its copy, each slot with the copy that its pointer leads to. -/

namespace CallStacks.Frozen

variable {context : CaptureContext} {frames : List LiveFrame} {final : Capture} {count : Nat}

/-- A frame of a running stack, and what it was frozen as. -/
structure Transit where
  source : LiveFrame
  copy : FrozenFrame

namespace Transit

variable {transit : Transit} {transits : List Transit} {addr : Word}

def covers (transit : Transit) (addr : Word) : Bool :=
  transit.source.sp ≤ addr && decide ((addr - transit.source.sp).toNat < transit.copy.buffer.size)

def image (transit : Transit) (addr : Word) : Word :=
  transit.copy.buffer.base + (addr - transit.source.sp)

/-- Where what stood at an address has gone, by the first copy that covers it. -/
def follow? (transits : List Transit) (addr : Word) : Option Word :=
  (transits.find? (·.covers addr)).map (·.image addr)

def slots (transit : Transit) : List Nat := transit.copy.places

def shift (transit : Transit) : Shift :=
  Shift.between transit.source.sp transit.copy.buffer.base (UInt64.ofNat transit.copy.buffer.size)

theorem covers_iff : transit.covers addr = true ↔ transit.source.sp.toNat ≤ addr.toNat ∧
    addr.toNat < transit.source.sp.toNat + transit.copy.buffer.size := by
  simp only [covers, Bool.and_eq_true, decide_eq_true_eq, UInt64.le_iff_toNat_le]
  constructor
  · rintro ⟨above, inside⟩
    rw [UInt64.toNat_sub_of_le _ _ (UInt64.le_iff_toNat_le.mpr above)] at inside
    omega
  · rintro ⟨above, inside⟩
    rw [UInt64.toNat_sub_of_le _ _ (UInt64.le_iff_toNat_le.mpr above)]
    omega

theorem move?_shift (small : transit.copy.buffer.size < UInt64.size) :
    transit.shift.move? addr = if transit.covers addr then some (transit.image addr) else none := by
  have same : transit.shift.covers addr = transit.covers addr := by
    apply Bool.eq_iff_iff.mpr
    rw [Shift.covers_iff, covers_iff]
    simp only [shift, Shift.between, UInt64.toNat_ofNat', Nat.mod_eq_of_lt small]
    omega
  have moved : addr + transit.shift.distance = transit.image addr := by
    simp only [shift, Shift.between, image]
    rw [UInt64.add_comm, UInt64.sub_eq_add_neg, UInt64.sub_eq_add_neg, UInt64.add_assoc, UInt64.add_comm addr]
  rw [Shift.move?, same, moved]

private theorem follow?_eq (small : ∀ transit ∈ transits, transit.copy.buffer.size < UInt64.size) :
    (transits.map shift).findSome? (·.move? addr) = follow? transits addr := by
  induction transits with
  | nil => rfl
  | cons first rest ih =>
    have tail := ih fun transit within => small transit (List.mem_cons_of_mem _ within)
    rw [List.map_cons, List.findSome?_cons, move?_shift (small first List.mem_cons_self), tail]
    unfold follow?
    rw [List.find?_cons]
    cases first.covers addr <;> rfl

/-- The copy has the extent of the frame and knows where things are in it: its return address and its
interior pointers, the implicit one of a saved frame pointer included. -/
structure Described (context : CaptureContext) (order : Nat) (this : Transit) : Prop where
  base : this.copy.buffer.base = context.place order
  extent : this.source.sp.toNat + this.copy.buffer.size =
    this.source.callerSp.toNat + (this.source.copiedArgs context).toNat
  returnOffset : this.source.offsetOf this.source.returnSlot = .ok this.copy.layout.returnOffset
  interiors : ∃ registers image after, this.source.saveRegisters Register.all image = .ok (registers, after) ∧
    List.Forall₂ (References.Slots registers this.source)
      ((this.source.references ++ SavedRegister.frameReferences registers).filter (·.interior))
      this.copy.layout.interiors

/-- Each pointer of a frame leads to where its target has gone, and all else is copied as it was. A
pointer to the frame itself or further out was followed through the frame and those copied after it,
any other pointer through those copied before it. -/
structure Faithful (context : CaptureContext) (before : List Transit) (this : Transit)
    (after : List Transit) : Prop where
  inward : ∀ slot ∈ this.slots, context.waits this.source (this.source.copiedWord context.memory slot) →
    ∃ value, follow? (this :: after) (this.source.copiedWord context.memory slot) = some value ∧
      this.copy.buffer.read slot = .ok value
  outward : ∀ slot ∈ this.slots, ¬ context.waits this.source (this.source.copiedWord context.memory slot) →
    this.copy.buffer.read slot = .ok ((follow? before (this.source.copiedWord context.memory slot)).getD
      (this.source.copiedWord context.memory slot))
  rest : ∀ index < this.copy.buffer.size, (∀ slot ∈ this.slots, ¬ Buffer.Covered slot index) →
    this.copy.buffer.bytes[index]? = some (this.source.copiedByte context.memory index)

end Transit

/-- The suspended frames with their copies, innermost first. -/
def Capture.transits (frames : List LiveFrame) (capture : Capture) : List Transit :=
  List.zipWith Transit.mk (suspended frames) capture.frames

theorem LiveFrame.extent_spec {frame : LiveFrame} {size : UInt32} (done : frame.extent context = .ok size) :
    frame.sp ≤ frame.callerSp ∧
      frame.sp.toNat + size.toNat = frame.callerSp.toNat + (frame.copiedArgs context).toNat := by
  unfold LiveFrame.extent at done
  split at done
  · cases done
  next stop added =>
    obtain ⟨fits, sum⟩ := Word.add?_eq_some_iff.mp added
    split at done
    next bounds =>
      cases done
      have ordered := UInt64.le_iff_toNat_le.mp bounds.1
      have above : frame.sp ≤ stop := UInt64.le_iff_toNat_le.mpr (by omega)
      have small := bounds.2
      rw [UInt64.toNat_sub_of_le _ _ above] at small
      rw [UInt64.toNat_toUInt32, UInt64.toNat_sub_of_le _ _ above, Nat.mod_eq_of_lt small]
      rw [UInt32.toNat_toUInt64] at sum
      exact ⟨bounds.1, by omega⟩
    next => cases done

namespace Capture

theorem Traced.extent {earlier later : List Shift} {places : List Nat} {live : LiveFrame} {copy : Copied}
    (traced : Traced context earlier later places live copy) :
    live.extent context = .ok copy.frame.layout.recorded ∧
      copy.frame.buffer.base = context.place earlier.length ∧
      copy.frame.buffer.size = copy.frame.layout.recorded.toNat ∧
      copy.shift = Transit.shift ⟨live, copy.frame⟩ := by
  obtain ⟨first, registers, image, known, copying, outline, base, size, _⟩ := traced
  have layout := Copied.layout_of_outline outline
  have shift : copy.shift = first.shift := congrArg Prod.snd outline
  obtain ⟨imageBase, imageSize, _⟩ := LiveFrame.copiedByte_of_saveRegisters copying.saved
  rw [imageBase] at base
  rw [imageSize, ← layout] at size
  refine ⟨layout ▸ copying.extent, base, size, ?_⟩
  rw [shift, copying.shift, Transit.shift, base, size, ← layout]
  congr 1
  exact UInt64.toNat_inj.mp (by simp)

theorem Traced.complete {earlier later : List Shift} {places : List Nat} {live : LiveFrame} {copy : Copied}
    (traced : Traced context earlier later places live copy) :
    copy.frame.layout.unrecorded = 0 ∧ copy.frame.layout.reloads.getLast?.any (·.tag.endsList) = true := by
  obtain ⟨first, registers, _, _, copying, outline, _⟩ := traced
  have layout := Copied.layout_of_outline outline
  rw [layout, copying.built]
  refine ⟨rfl, ?_⟩
  simp only [SavedRegister.reloads, List.getLast?_concat, Option.any_some]
  split <;> rfl

theorem tracks_of_walk (done : walk context {} frames = .ok (count, final)) :
    Tracks context (suspended frames) final ∧ final.waiting = [] := by
  obtain ⟨added, finished⟩ := walk_spec done
  have empty : Tracks context [] {} := ⟨rfl, by simp, by simp⟩
  refine ⟨tracks_of_foldlM empty added, ?_⟩
  unfold finish at finished
  split at finished
  next none => exact List.isEmpty_iff.mp none
  next => cases finished

theorem traced_of_walk (done : walk context {} frames = .ok (count, final)) {index : Nat}
    {live : LiveFrame} {copy : Copied} (visited : (suspended frames)[index]? = some live)
    (held : final.copied[index]? = some copy) :
    Traced context (final.shifts.take index) (final.shifts.drop index) [] live copy := by
  obtain ⟨tracks, none⟩ := tracks_of_walk done
  have traced := tracks.each index live copy visited held
  rwa [none] at traced

theorem copied_of_transits {index : Nat} {this : Transit} (held : (final.transits frames)[index]? = some this) :
    ∃ copy, (suspended frames)[index]? = some this.source ∧ final.copied[index]? = some copy ∧
      this.copy = copy.frame := by
  obtain ⟨live, frame, visited, shown, rfl⟩ := List.getElem?_zipWith_eq_some.mp held
  rw [Capture.frames, List.getElem?_map, Array.getElem?_toList, Option.map_eq_some_iff] at shown
  obtain ⟨copy, copied, rfl⟩ := shown
  exact ⟨copy, visited, copied, rfl⟩

private theorem shifts_eq (done : walk context {} frames = .ok (count, final)) :
    final.shifts = (final.transits frames).map Transit.shift := by
  have sizes := (tracks_of_walk done).1.size
  apply List.ext_getElem?
  intro index
  rw [shifts, List.getElem?_map, List.getElem?_map, Array.getElem?_toList]
  cases held : final.copied[index]? with
  | none =>
    have beyond : (final.transits frames)[index]? = none := by
      have bound := Array.getElem?_eq_none_iff.mp held
      apply List.getElem?_eq_none
      rw [transits, List.length_zipWith]
      omega
    rw [beyond]
    rfl
  | some copy =>
    have inside := (Array.getElem?_eq_some_iff.mp held).1
    obtain ⟨live, visited⟩ : ∃ live, (suspended frames)[index]? = some live :=
      ⟨_, List.getElem?_eq_getElem (by omega)⟩
    have shown : (final.transits frames)[index]? = some ⟨live, copy.frame⟩ := by
      rw [transits, List.getElem?_zipWith, visited, Capture.frames, List.getElem?_map, Array.getElem?_toList, held]
      rfl
    rw [shown, Option.map_some, Option.map_some, (traced_of_walk done visited held).extent.2.2.2]

theorem plain_of_transits (done : walk context {} frames = .ok (count, final)) {this : Transit}
    (member : this ∈ final.transits frames) :
    this.copy.layout.unrecorded = 0 ∧ this.copy.buffer.size < UInt32.size ∧
      this.copy.layout.reloads.getLast?.any (·.tag.endsList) = true := by
  obtain ⟨index, held⟩ := List.getElem?_of_mem member
  obtain ⟨copy, visited, copied, same⟩ := copied_of_transits held
  have traced := traced_of_walk done visited copied
  rw [same, traced.extent.2.2.1]
  exact ⟨traced.complete.1, copy.frame.layout.recorded.toNat_lt, traced.complete.2⟩

variable {before after : List Transit} {this : Transit}

theorem copies_eq (done : walk context {} frames = .ok (count, final)) :
    (final.transits frames).map Transit.source = suspended frames ∧
      (final.transits frames).map Transit.copy = final.frames := by
  have sizes : (suspended frames).length = final.frames.length := by
    rw [Capture.frames, List.length_map, Array.length_toList]
    exact (tracks_of_walk done).1.size.symm
  rw [transits, ← List.map_uncurry_zip_eq_zipWith, List.map_map, List.map_map]
  exact ⟨List.map_fst_zip (Nat.le_of_eq sizes), List.map_snd_zip (Nat.le_of_eq sizes.symm)⟩

theorem described_of_walk (done : walk context {} frames = .ok (count, final))
    (split : final.transits frames = before ++ this :: after) : Transit.Described context before.length this := by
  have held : (final.transits frames)[before.length]? = some this := by rw [split]; simp
  obtain ⟨copy, visited, copied, same⟩ := copied_of_transits held
  have traced := traced_of_walk done visited copied
  obtain ⟨extent, base, size, _⟩ := traced.extent
  obtain ⟨first, registers, image, known, copying, outline, _⟩ := traced
  have layout := Copied.layout_of_outline outline
  have inside := (List.getElem?_eq_some_iff.mp held).1
  refine ⟨?_, ?_, ?_, ?_⟩
  · rw [same, base, List.length_take, Nat.min_eq_left]
    rw [shifts_eq done, List.length_map]
    exact Nat.le_of_lt inside
  · rw [same, size]
    exact (LiveFrame.extent_spec extent).2
  · rw [same, layout]
    exact copying.returnOffset
  · obtain ⟨_, slots, _, all, _, placed⟩ := References.entries_of_foldlM copying.recorded
    refine ⟨registers, _, image, copying.saved, ?_⟩
    rw [same, layout, copying.built, all]
    exact placed

theorem faithful_of_walk (done : walk context {} frames = .ok (count, final))
    (split : final.transits frames = before ++ this :: after) (apart : this.slots.Pairwise Buffer.Apart) :
    Transit.Faithful context before this after := by
  have held : (final.transits frames)[before.length]? = some this := by rw [split]; simp
  obtain ⟨copy, visited, copied, same⟩ := copied_of_transits held
  obtain ⟨first, registers, image, known, copying, outline, base, size, tracked⟩ :=
    traced_of_walk done visited copied
  have interiors : known.places = this.slots := by
    have layout := Copied.layout_of_outline outline
    rw [Transit.slots, FrozenFrame.places, same, layout, copying.built]
    rfl
  have small : ∀ other ∈ before ++ this :: after, other.copy.buffer.size < UInt64.size := fun other within =>
    Nat.lt_trans (plain_of_transits done (split ▸ within)).2.1 (by decide)
  rw [shifts_eq done, split, List.map_append, List.take_left' (List.length_map _),
    List.drop_left' (List.length_map _), interiors] at tracked
  have tracked := tracked apart
  obtain ⟨_, imageSize, bytes⟩ := LiveFrame.copiedByte_of_saveRegisters copying.saved
  have follows : ∀ part ⊆ before ++ this :: after, ∀ word : Word,
      (part.map Transit.shift).findSome? (·.move? word) = Transit.follow? part word :=
    fun part within word => Transit.follow?_eq fun other inside => small other (within inside)
  refine ⟨fun slot within waits => ?_, fun slot within passes => ?_, fun index inside outside => ?_⟩
  · obtain ⟨word, value, was, now, followed⟩ := tracked.each slot within
    obtain rfl := LiveFrame.copiedWord_of_read imageSize bytes was
    unfold Followed at followed
    rw [if_pos waits, follows (this :: after) (List.subset_append_right _ _)] at followed
    have settled := followed.resolve_left fun both => by simp at both
    exact ⟨value, settled.2, same ▸ now⟩
  · obtain ⟨word, value, was, now, followed⟩ := tracked.each slot within
    obtain rfl := LiveFrame.copiedWord_of_read imageSize bytes was
    unfold Followed at followed
    rw [if_neg passes, follows before (List.subset_append_left _ _)] at followed
    rw [same, now, followed.2]
  · rw [same] at inside ⊢
    rw [tracked.rest index outside]
    exact bytes index (by omega)

/-- A slot holds a place in a copy, unless the copy has nothing to do with it. -/
theorem value_of_faithful (faithful : Transit.Faithful context before this after) {slot : Nat} {value : Word}
    (within : slot ∈ this.slots) (read : this.copy.buffer.read slot = .ok value) :
    (∃ other ∈ before ++ this :: after, ∃ word, other.covers word = true ∧ value = other.image word) ∨
      ¬ context.waits this.source value = true ∧ ∀ other ∈ before, other.covers value = false := by
  have found : ∀ part ⊆ before ++ this :: after, ∀ word, Transit.follow? part word = some value →
      ∃ other ∈ before ++ this :: after, ∃ word, other.covers word = true ∧ value = other.image word := by
    intro part inside word followed
    obtain ⟨other, first, rfl⟩ := Option.map_eq_some_iff.mp followed
    have covered := List.find?_some (p := fun other : Transit => other.covers word) first
    exact ⟨other, inside (List.mem_of_find?_eq_some first), word, covered, rfl⟩
  by_cases waits : context.waits this.source (this.source.copiedWord context.memory slot) = true
  · obtain ⟨value', followed, now⟩ := faithful.inward slot within waits
    obtain rfl : value = value' := Except.ok.inj (read.symm.trans now)
    exact .inl (found _ (List.subset_append_right _ _) _ followed)
  · have now := faithful.outward slot within waits
    rw [read, Except.ok.injEq] at now
    cases followed : Transit.follow? before (this.source.copiedWord context.memory slot) with
    | some place =>
      rw [followed, Option.getD_some] at now
      rw [← now] at followed
      exact .inl (found _ (List.subset_append_left _ _) _ followed)
    | none =>
      rw [followed] at now
      have missed := Option.map_eq_none_iff.mp followed
      refine .inr ⟨now ▸ waits, fun other inside => ?_⟩
      have no := List.find?_eq_none.mp missed other inside
      rw [now]
      simpa using no

end Capture

namespace Transit

/-- No slot points into stack bytes that were copied. -/
def Settled (transits : List Transit) : Prop :=
  ∀ this ∈ transits, ∀ slot ∈ this.slots, ∀ value, this.copy.buffer.read slot = .ok value →
    ∀ other ∈ transits, other.covers value = false

/-- No copy lies in stack bytes that were copied. -/
def Clear (transits : List Transit) : Prop :=
  ∀ this ∈ transits, ∀ index < this.copy.buffer.size, ∀ other ∈ transits,
    other.covers (this.copy.buffer.base + UInt64.ofNat index) = false

/-- No frame starts below one that was copied before it. -/
def Ascending (transits : List Transit) : Prop := transits.Pairwise (·.source.sp ≤ ·.source.sp)

/-- Pointers are followed up to the end of every frame. -/
def Bounded (context : CaptureContext) (transits : List Transit) : Prop :=
  ∀ this ∈ transits, this.source.sp.toNat + this.copy.buffer.size ≤ context.limit.toNat

private theorem covers_image {transits : List Transit} {this other : Transit} {word : Word} (clear : Clear transits)
    (member : this ∈ transits) (covered : this.covers word = true) (also : other ∈ transits) :
    other.covers (this.image word) = false := by
  simp only [covers, Bool.and_eq_true, decide_eq_true_eq] at covered
  have apart := clear this member _ covered.2 other also
  rwa [UInt64.ofNat_toNat] at apart

end Transit

/-- Capture leads every interior pointer to where its target has gone, and copies all else as it was. If
frames come in the order of their stack pointers and the limit lies behind them, no recorded pointer is
left that leads into the stack they were copied from. -/
theorem Capture.walk_relocates (done : Capture.walk context {} frames = .ok (count, final))
    (apart : ∀ this ∈ final.transits frames, this.slots.Pairwise Buffer.Apart) :
    (final.transits frames).map Transit.source = suspended frames ∧
      (final.transits frames).map Transit.copy = final.frames ∧
      (∀ before this after, final.transits frames = before ++ this :: after →
        Transit.Described context before.length this ∧ Transit.Faithful context before this after) ∧
      (Transit.Ascending (final.transits frames) → Transit.Bounded context (final.transits frames) →
        Transit.Clear (final.transits frames) → Transit.Settled (final.transits frames)) := by
  obtain ⟨sources, copies⟩ := Capture.copies_eq done
  refine ⟨sources, copies, fun before this after split => ?_, fun ascending bounded clear => ?_⟩
  · exact ⟨Capture.described_of_walk done split,
      Capture.faithful_of_walk done split (apart this (by simp [split]))⟩
  · intro this member slot within value read other also
    obtain ⟨before, after, split⟩ := List.append_of_mem member
    have faithful := Capture.faithful_of_walk done split (apart this member)
    rcases Capture.value_of_faithful faithful within read with ⟨target, reached, word, covered, rfl⟩ | ⟨passes, missed⟩
    · exact Transit.covers_image clear (split ▸ reached) covered also
    · by_contra covered
      rw [Bool.not_eq_false] at covered
      have inside := Transit.covers_iff.mp covered
      -- a pointer that did not wait and is still inside leads below its own frame
      have below : value.toNat < this.source.sp.toNat := by
        by_contra above
        apply passes
        have ends := bounded other also
        simp only [CaptureContext.waits, Bool.and_eq_true, decide_eq_true_eq, UInt64.le_iff_toNat_le,
          UInt64.lt_iff_toNat_lt]
        omega
      rw [split] at also
      rcases List.mem_append.mp also with early | late
      · rw [missed other early] at covered
        cases covered
      · have order : this.source.sp ≤ other.source.sp := by
          rcases List.mem_cons.mp late with rfl | late
          · exact UInt64.le_refl _
          · rw [Transit.Ascending, split] at ascending
            exact List.rel_of_pairwise_cons (List.pairwise_append.mp ascending).2.1 late
        have higher := UInt64.le_iff_toNat_le.mp order
        omega

namespace Capture

def ofWalk (context : CaptureContext) (frames : List LiveFrame) : Capture :=
  match walk context {} frames with
  | .ok (_, capture) => capture
  | .error _ => {}

private theorem ok_of_toOption {ε α : Type} {answer : Except ε α} {value : α}
    (some : answer.toOption = some value) : answer = .ok value := by
  cases answer with
  | ok other => exact congrArg Except.ok (Option.some.inj some)
  | error => cases some

theorem walk_ofWalk (accepted : (walk context {} frames).toOption.map (·.1) = some count) :
    walk context {} frames = .ok (count, ofWalk context frames) := by
  obtain ⟨⟨_, capture⟩, done, rfl⟩ := Option.map_eq_some_iff.mp accepted
  rw [ofWalk, ok_of_toOption done]

/-- Two frames. The inner one refers to the outer one; the outer one refers to itself and to the inner one. -/
def pairContext : CaptureContext :=
  { memory := ((Memory.blank.writeWord 0x1000 0x1018).writeWord 0x1010 0x1020).writeWord 0x1018 0x1008
    place := fun order => 0x8000 + 0x100 * UInt64.ofNat order
    minArgBytes := 0
    limit := 0x2000 }

def pair : List LiveFrame :=
  [{ holdsMark := true, sp := 0x1000, callerSp := 0x1010, returnSlot := 0x1008,
     references := [⟨0x1000, true, false⟩] },
   { holdsMark := false, sp := 0x1010, callerSp := 0x1030, returnSlot := 0x1028,
     references := [⟨0x1010, true, false⟩, ⟨0x1018, true, true⟩] }]

theorem walk_relocates_pair : walk pairContext {} pair = .ok (2, ofWalk pairContext pair) ∧
    ((ofWalk pairContext pair).transits pair).map (fun this => this.slots.map fun slot =>
      (this.copy.buffer.read slot).toOption) = [[some 0x8108], [some 0x8110, some 0x8008]] ∧
    Transit.Settled ((ofWalk pairContext pair).transits pair) := by
  have done : walk pairContext {} pair = .ok (2, ofWalk pairContext pair) := walk_ofWalk (by decide +kernel)
  have apart : ∀ this ∈ (ofWalk pairContext pair).transits pair, this.slots.Pairwise Buffer.Apart := by
    decide +kernel
  have ascending : Transit.Ascending ((ofWalk pairContext pair).transits pair) := by
    unfold Transit.Ascending
    decide +kernel
  have bounded : Transit.Bounded pairContext ((ofWalk pairContext pair).transits pair) := by
    unfold Transit.Bounded
    decide +kernel
  have clear : Transit.Clear ((ofWalk pairContext pair).transits pair) := by
    unfold Transit.Clear
    decide +kernel
  exact ⟨done, by decide +kernel, (walk_relocates done apart).2.2.2 ascending bounded clear⟩

/-- Frames that a walk meets against the order of their stack pointers. The inner one lies higher and refers
to the outer one. -/
def descentContext : CaptureContext :=
  { pairContext with memory := Memory.blank.writeWord 0x1040 0x1010 }

def descent : List LiveFrame :=
  [{ holdsMark := true, sp := 0x1040, callerSp := 0x1050, returnSlot := 0x1048,
     references := [⟨0x1040, true, false⟩] },
   { holdsMark := false, sp := 0x1000, callerSp := 0x1020, returnSlot := 0x1018 }]

/-- Without that order a pointer into captured stack may be left behind. -/
theorem descent_not_settled : walk descentContext {} descent = .ok (2, ofWalk descentContext descent) ∧
    (∀ this ∈ (ofWalk descentContext descent).transits descent, this.slots.Pairwise Buffer.Apart) ∧
    Transit.Bounded descentContext ((ofWalk descentContext descent).transits descent) ∧
    Transit.Clear ((ofWalk descentContext descent).transits descent) ∧
    ¬ Transit.Settled ((ofWalk descentContext descent).transits descent) := by
  refine ⟨walk_ofWalk (by decide +kernel), by decide +kernel, ?_, ?_, fun settled => ?_⟩
  · unfold Transit.Bounded
    decide +kernel
  · unfold Transit.Clear
    decide +kernel
  · have left : ((ofWalk descentContext descent).transits descent).any (fun this => this.slots.any fun slot =>
        (this.copy.buffer.read slot).toOption.any fun value =>
          ((ofWalk descentContext descent).transits descent).any (·.covers value)) = true := by
      decide +kernel
    simp only [List.any_eq_true, Option.any_eq_true] at left
    obtain ⟨this, member, slot, within, value, read, other, also, covered⟩ := left
    rw [settled this member slot within value (ok_of_toOption read) other also] at covered
    cases covered

end Capture
end CallStacks.Frozen
