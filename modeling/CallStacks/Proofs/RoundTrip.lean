import CallStacks.Proofs.CaptureRelocation
import CallStacks.Proofs.Courses
import CallStacks.Proofs.ResumedBytes

/-! Capture and resume as one move of a stack. A chain is resumed from its innermost frame out, while the
program does whatever it likes to other chains. Each frame that comes back finds its own bytes, with every
pointer into a captured frame leading to where that frame is by then. -/

namespace CallStacks.Frozen
open Store

variable {context : CaptureContext} {store final : Store} {roster : Roster} {handles left : List Handle}
  {handle : Handle}

namespace Transit

variable {transit : Transit} {transits before after : List Transit} {this : Transit} {landed : List Word}
  {addr word sp : Word}

def Owns (transit : Transit) (addr : Word) : Prop :=
  transit.copy.buffer.base.toNat ≤ addr.toNat ∧
    addr.toNat < transit.copy.buffer.base.toNat + transit.copy.buffer.size

instance : Decidable (transit.Owns addr) := inferInstanceAs (Decidable (_ ∧ _))

/-- Buffers lie apart from each other, and no captured pointer led into one of them. -/
structure Isolated (context : CaptureContext) (transits : List Transit) : Prop where
  whole : ∀ this ∈ transits, this.copy.buffer.base.toNat + this.copy.buffer.size ≤ UInt64.size
  apart : transits.Pairwise fun this other => ∀ addr, ¬ (this.Owns addr ∧ other.Owns addr)
  strange : ∀ this ∈ transits, ∀ slot ∈ this.slots, ∀ other ∈ transits,
    ¬ other.Owns (this.source.copiedWord context.memory slot)

/-- No place at which a frame has landed lies in a buffer. -/
def LandedApart (transits : List Transit) (landed : List Word) : Prop :=
  ∀ pair ∈ transits.zip landed, ∀ offset < pair.1.copy.buffer.size, ∀ other ∈ transits,
    ¬ other.Owns (pair.2 + UInt64.ofNat offset)

/-- Where what stood at an address is, if each frame that covers it is now at the place beside it. -/
def locate? (placed : List (Transit × Word)) (addr : Word) : Option Word :=
  (placed.find? (·.1.covers addr)).map fun pair => pair.2 + (addr - pair.1.source.sp)

/-- The frame has come back. Each of its pointers leads to where its target is by now: in a frame that
has come back as well, or in the copy of one that has not. All else is as it was captured, apart from the
return address. -/
structure Restored (context : CaptureContext) (before : List Transit) (this : Transit) (after : List Transit)
    (landed : List Word) (landing : Landing) (memory : Memory) : Prop where
  returned : memory.word (landing.sp + this.copy.layout.returnOffset.toUInt64) = landing.returnAddress
  inward : ∀ slot ∈ this.slots, Buffer.Apart slot this.copy.layout.returnOffset.toNat →
    context.waits this.source (this.source.copiedWord context.memory slot) →
    locate? ((this, landing.sp) :: after.map fun other => (other, other.copy.buffer.base))
        (this.source.copiedWord context.memory slot) =
      some (memory.word (landing.sp + UInt64.ofNat slot))
  outward : ∀ slot ∈ this.slots, Buffer.Apart slot this.copy.layout.returnOffset.toNat →
    ¬ context.waits this.source (this.source.copiedWord context.memory slot) →
    memory.word (landing.sp + UInt64.ofNat slot) =
      (locate? (before.zip landed) (this.source.copiedWord context.memory slot)).getD
        (this.source.copiedWord context.memory slot)
  rest : ∀ index < this.copy.buffer.size, ¬ Buffer.Covered this.copy.layout.returnOffset.toNat index →
    (∀ slot ∈ this.slots, ¬ Buffer.Covered slot index) →
    memory.byte (landing.sp + UInt64.ofNat index) = this.source.copiedByte context.memory index

/-- A buffer that starts at the frame's stack pointer and has a length that an address can have. -/
def Plain (transit : Transit) : Prop :=
  transit.copy.layout.unrecorded = 0 ∧ transit.copy.buffer.size < UInt64.size

private theorem covers_shiftTo (plain : transit.Plain) : (transit.copy.shiftTo sp).covers addr = true ↔
    transit.Owns addr :=
  FrozenFrame.covers_shiftTo plain.2

private theorem owns_image (whole : this.copy.buffer.base.toNat + this.copy.buffer.size ≤ UInt64.size)
    (covered : this.covers word = true) : this.Owns (this.image word) := by
  simp only [covers, Bool.and_eq_true, decide_eq_true_eq] at covered
  rw [Owns, image, UInt64.toNat_add, Nat.mod_eq_of_lt (Nat.lt_of_lt_of_le (by omega) whole)]
  omega

private theorem advance_of_strange {placed : List (Transit × Word)} (plain : ∀ pair ∈ placed, pair.1.Plain)
    (strange : ∀ pair ∈ placed, ¬ pair.1.Owns word) :
    Shift.advance (placed.map fun pair => pair.1.copy.shiftTo pair.2) word = word := by
  induction placed with
  | nil => rfl
  | cons first rest ih =>
    have away : (first.1.copy.shiftTo first.2).covers word = false := by
      rw [← Bool.not_eq_true, covers_shiftTo (plain first List.mem_cons_self)]
      exact strange first List.mem_cons_self
    have stays : (first.1.copy.shiftTo first.2).move? word = none := by
      rw [Shift.move?, away]
      rfl
    rw [List.map_cons, Shift.advance, List.foldl_cons, stays]
    exact ih (fun pair within => plain pair (List.mem_cons_of_mem _ within))
      fun pair within => strange pair (List.mem_cons_of_mem _ within)

private theorem advance_of_image {first last : List (Transit × Word)}
    (plain : ∀ pair ∈ first ++ (this, sp) :: last, pair.1.Plain)
    (whole : this.copy.buffer.base.toNat + this.copy.buffer.size ≤ UInt64.size) (covered : this.covers word = true)
    (early : ∀ pair ∈ first, ¬ pair.1.Owns (this.image word))
    (late : ∀ pair ∈ last, ¬ pair.1.Owns (sp + (word - this.source.sp))) :
    Shift.advance ((first ++ (this, sp) :: last).map fun pair => pair.1.copy.shiftTo pair.2)
      (this.image word) = sp + (word - this.source.sp) := by
  have here : this.Plain := plain (this, sp) (by simp)
  have inside : (this.copy.shiftTo sp).covers (this.image word) = true :=
    (covers_shiftTo here).mpr (owns_image whole covered)
  have moved : (this.copy.shiftTo sp).move? (this.image word) = some (sp + (word - this.source.sp)) := by
    have start : this.copy.destination sp = sp := by
      rw [FrozenFrame.destination, here.1]
      exact UInt64.add_zero sp
    rw [Shift.move?, inside, if_pos rfl, FrozenFrame.shiftTo, Shift.between, start, image]
    congr 1
    grind
  have before := advance_of_strange (fun pair within => plain pair (List.mem_append_left _ within)) early
  have after := advance_of_strange
    (fun pair within => plain pair (List.mem_append_right _ (List.mem_cons_of_mem _ within))) late
  rw [Shift.advance] at before after ⊢
  rw [List.map_append, List.foldl_append, before, List.map_cons, List.foldl_cons, moved]
  exact after

private theorem locate?_of_follow? {placed : List (Transit × Word)} {value : Word}
    (followed : follow? (placed.map Prod.fst) word = some value) :
    ∃ first this sp last, placed = first ++ (this, sp) :: last ∧ this.covers word = true ∧
      value = this.image word ∧ locate? placed word = some (sp + (word - this.source.sp)) := by
  unfold follow? at followed
  rw [List.find?_map] at followed
  obtain ⟨target, first, rfl⟩ := Option.map_eq_some_iff.mp followed
  obtain ⟨⟨this, sp⟩, found, rfl⟩ := Option.map_eq_some_iff.mp first
  have located : placed.find? (·.1.covers word) = some (this, sp) := found
  obtain ⟨covered, first, last, split, _⟩ := List.find?_eq_some_iff_append.mp located
  refine ⟨first, this, sp, last, split, covered, rfl, ?_⟩
  rw [locate?, located]
  rfl

private theorem locate?_eq_none {placed : List (Transit × Word)}
    (missed : follow? (placed.map Prod.fst) word = none) : locate? placed word = none := by
  unfold follow? at missed
  rw [List.find?_map, Option.map_map, Option.map_eq_none_iff] at missed
  have nowhere : placed.find? (·.1.covers word) = none := missed
  rw [locate?, nowhere]
  rfl

private theorem moves_eq (before : List Transit) (landed : List Word) :
    moves (before.map Transit.copy) landed = (before.zip landed).map fun pair => pair.1.copy.shiftTo pair.2 := by
  rw [moves, List.zipWith_map_left, List.zip, List.map_zipWith]

private theorem restored_of_advanced {removed : FrozenFrame} {landing : Landing} {memory : Memory}
    (split : transits = before ++ this :: after) (length : before.length = landed.length)
    (plain : ∀ transit ∈ transits, transit.Plain) (isolated : Isolated context transits)
    (apart : LandedApart transits landed) (faithful : Faithful context before this after)
    (advanced : Advanced (moves (before.map Transit.copy) landed ++ [this.copy.shiftTo landing.sp]) this.copy removed)
    (stands : Landed removed.buffer landing.sp landing.returnAddress this.copy.layout.returnOffset.toNat memory) :
    Restored context before this after landed landing memory := by
  have names : (before.zip landed).map Prod.fst = before := List.map_fst_zip (Nat.le_of_eq length)
  have member : this ∈ transits := by simp [split]
  have settled : ∀ slot ∈ this.slots, Buffer.Apart slot this.copy.layout.returnOffset.toNat → ∀ value,
      this.copy.buffer.read slot = .ok value → memory.word (landing.sp + UInt64.ofNat slot) =
        Shift.advance ((before.zip landed ++ [(this, landing.sp)]).map fun pair => pair.1.copy.shiftTo pair.2) value := by
    intro slot within separate value read
    obtain ⟨word, was, now⟩ := advanced.slots slot within
    obtain rfl : value = word := Except.ok.inj (read.symm.trans was)
    rw [stands.word separate now, moves_eq, List.map_append]
    rfl
  obtain ⟨inner, outer, cross⟩ := List.pairwise_append.mp (split ▸ isolated.apart)
  obtain ⟨beside, _⟩ := List.pairwise_cons.mp outer
  have within_before : ∀ pair ∈ before.zip landed, pair.1 ∈ before := fun pair inside =>
    (List.of_mem_zip inside).1
  have within_transits : ∀ pair ∈ before.zip landed ++ [(this, landing.sp)], pair.1 ∈ transits := by
    intro pair inside
    rw [split]
    rcases List.mem_append.mp inside with early | last
    · exact List.mem_append_left _ (within_before pair early)
    · simp [List.mem_singleton.mp last]
  have allPlain := fun pair inside => plain _ (within_transits pair inside)
  refine ⟨?_, ?_, ?_, ?_⟩
  · have wide : this.copy.layout.returnOffset.toUInt64 = UInt64.ofNat this.copy.layout.returnOffset.toNat :=
      UInt64.toNat_inj.mp (by simp)
    rw [wide]
    exact stands.returned
  · intro slot within separate waits
    obtain ⟨value, followed, read⟩ := faithful.inward slot within waits
    rw [settled slot within separate value read]
    have sources : ((this, landing.sp) :: after.map fun other => (other, other.copy.buffer.base)).map Prod.fst =
        this :: after := by simp [Function.comp_def]
    obtain ⟨first, target, place, last, placed, covered, rfl, located⟩ := locate?_of_follow? (sources ▸ followed)
    rw [located]
    cases first with
    | nil =>
      -- the frame points into itself
      obtain ⟨same, _⟩ := List.cons.inj placed
      obtain ⟨rfl, rfl⟩ := Prod.mk.inj same
      have owns := owns_image (isolated.whole this member) covered
      rw [advance_of_image allPlain (isolated.whole this member) covered (fun pair inside also =>
        cross pair.1 (within_before pair inside) this List.mem_cons_self _ ⟨also, owns⟩) (by simp)]
    | cons head rest =>
      -- it points into a caller that is still frozen
      have inside : (target, place) ∈ after.map fun other => (other, other.copy.buffer.base) := by
        rw [(List.cons.inj placed).2]
        simp
      obtain ⟨caller, beyond, same⟩ := List.mem_map.mp inside
      obtain ⟨rfl, rfl⟩ := Prod.mk.inj same
      have owns := owns_image (isolated.whole caller (by simp [split, beyond])) covered
      rw [advance_of_strange allPlain fun pair inside also => ?_]
      · rfl
      rcases List.mem_append.mp inside with early | late
      · exact cross pair.1 (within_before pair early) caller (List.mem_cons_of_mem _ beyond) _ ⟨also, owns⟩
      · rw [List.mem_singleton.mp late] at also
        exact beside caller beyond _ ⟨also, owns⟩
  · intro slot within separate passes
    rw [settled slot within separate _ (faithful.outward slot within passes)]
    cases followed : follow? before (this.source.copiedWord context.memory slot) with
    | none =>
      rw [locate?_eq_none (names.symm ▸ followed), Option.getD_none]
      apply advance_of_strange allPlain
      intro pair inside
      exact isolated.strange this member slot within pair.1 (within_transits pair inside)
    | some value =>
      -- it points into a callee, which has come back
      obtain ⟨first, target, place, last, placed, covered, rfl, located⟩ :=
        locate?_of_follow? (names.symm ▸ followed)
      rw [located, Option.getD_some, Option.getD_some]
      have whole : before.zip landed ++ [(this, landing.sp)] =
          first ++ (target, place) :: (last ++ [(this, landing.sp)]) := by simp [placed]
      rw [whole] at allPlain within_transits ⊢
      have known : (target, place) ∈ transits.zip landed := by
        rw [split, ← List.append_nil landed, List.zip_append length, placed]
        simp
      have order : (first.map Prod.fst ++ target :: last.map Prod.fst).Pairwise fun this other =>
          ∀ addr, ¬ (this.Owns addr ∧ other.Owns addr) := by
        rw [← names, placed] at inner
        simpa using inner
      have target_member : target ∈ transits := within_transits (target, place) (by simp)
      have owns := owns_image (isolated.whole target target_member) covered
      apply advance_of_image allPlain (isolated.whole target target_member) covered
      · intro pair inside also
        exact (List.pairwise_append.mp order).2.2 pair.1 (List.mem_map_of_mem inside) target List.mem_cons_self
          _ ⟨also, owns⟩
      · intro pair inside
        simp only [covers, Bool.and_eq_true, decide_eq_true_eq] at covered
        have away := apart (target, place) known _ covered.2 pair.1 (within_transits pair (by simp [inside]))
        rwa [UInt64.ofNat_toNat] at away
  · intro index inside outside free
    apply stands.byte index _ _ outside
    rw [advanced.rest index free]
    exact faithful.rest index inside free

end Transit
namespace Freezer

/-- A chain that was just captured is suspended, with all its pointers where the capture has put them. -/
theorem suspended_of_capture {frames : List LiveFrame} {capture : Capture} {count : Nat}
    (walked : Capture.walk context {} frames = .ok (count, capture))
    (apart : ∀ this ∈ capture.transits frames, this.slots.Pairwise Buffer.Apart)
    (installed : Installed capture.frames handles store final) (valid : Valid final (roster.add handles)) :
    Suspended final (roster.add handles) handles capture.frames [] := by
  obtain ⟨length, held⟩ := List.forall₂_iff_zip.mp installed.held
  refine ⟨valid, fun some => Roster.mem_chains_add.mpr (.inl ⟨rfl, some⟩), length, fun handle copy within => ?_⟩
  have member : copy ∈ (capture.transits frames).map Transit.copy := by
    rw [(Capture.copies_eq walked).2]
    exact (List.of_mem_zip within).2
  obtain ⟨this, inside, rfl⟩ := List.mem_map.mp member
  obtain ⟨before, after, split⟩ := List.append_of_mem inside
  have faithful := Capture.faithful_of_walk walked split (apart this inside)
  have readable : ∀ slot ∈ this.copy.places, ∃ word, this.copy.buffer.read slot = .ok word := by
    intro slot place
    by_cases waits : context.waits this.source (this.source.copiedWord context.memory slot) = true
    · obtain ⟨value, _, read⟩ := faithful.inward slot place waits
      exact ⟨value, read⟩
    · exact ⟨_, faithful.outward slot place waits⟩
  obtain ⟨current, live, same⟩ := Option.map_eq_some_iff.mp (held within)
  refine ⟨current, live, (Advanced.start readable).congr ?_⟩
  have content := congrArg FrozenFrame.content same
  exact content

private theorem movable_of_walk {frames : List LiveFrame} {capture : Capture} {count : Nat}
    (walked : Capture.walk context {} frames = .ok (count, capture))
    (apart : ∀ this ∈ capture.transits frames, this.slots.Pairwise Buffer.Apart) :
    ∀ frame ∈ capture.frames, frame.Movable := by
  intro frame within
  rw [← (Capture.copies_eq walked).2] at within
  obtain ⟨this, member, rfl⟩ := List.mem_map.mp within
  exact ⟨(Capture.plain_of_transits walked member).1, apart this member⟩

private theorem next_of_course {start current : Freezer} {frames : List LiveFrame} {capture : Capture} {count : Nat}
    {landed : List Word} (walked : Capture.walk context {} frames = .ok (count, capture))
    (apart : ∀ this ∈ capture.transits frames, this.slots.Pairwise Buffer.Apart)
    (suspended : Suspended start.store roster handles capture.frames [])
    (course : Course start handles landed current (handle :: left)) :
    ∃ before this rest next, capture.transits frames = before ++ this :: rest ∧ before.length = landed.length ∧
      Suspended current.store next (handle :: left) (this.copy :: rest.map Transit.copy)
        (moves (before.map Transit.copy) landed) := by
  obtain ⟨gone, remaining, next, split, length, now⟩ := course.suspended suspended (movable_of_walk walked apart)
  have copies := (Capture.copies_eq walked).2
  rw [split] at copies
  obtain ⟨before, others, sources, rfl, rfl⟩ := List.map_eq_append_iff.mp copies
  rw [List.length_map] at length
  cases others with
  | nil => cases now.length
  | cons this rest => exact ⟨before, this, rest, next, sources, length, now⟩

def contextOf (freezer : Freezer) (memory : Memory) (place : Nat → Word) (limit : Word) : CaptureContext :=
  { memory, place, minArgBytes := freezer.settings.minArgBytes, limit }

/-- A capture makes a chain from which the frames come back. If interior slots do not overlap, and if no
buffer meets another one, a place where a frame lands or a pointer that was captured, each frame finds its
bytes and its pointers' targets when it is resumed, whatever else happened in the meantime. -/
theorem resume_restores {freezer start : Freezer} {memory : Memory} {place : Nat → Word}
    {frames : List LiveFrame} {limit : Word} {visited : Nat} {chain : Option Chain}
    (reachable : Reachable freezer)
    (captured : freezer.capture memory place frames limit = .ok ((visited, chain), start)) :
    ∃ capture handles,
      Capture.walk (freezer.contextOf memory place limit) {} frames = .ok (visited, capture) ∧
      chain = Chain.of? handles ∧
      (∀ made ∈ chain, start.chainMembers made.head = .ok handles.reverse) ∧
      (capture.transits frames).map Transit.source = suspended frames ∧
      handles.length = (suspended frames).length ∧
      ((∀ this ∈ capture.transits frames, this.slots.Pairwise Buffer.Apart) →
        Transit.Isolated (freezer.contextOf memory place limit) (capture.transits frames) →
        ∀ landed current handle left, Course start handles landed current (handle :: left) →
          Transit.LandedApart (capture.transits frames) landed →
          ∃ before this rest, capture.transits frames = before ++ this :: rest ∧
            before.length = landed.length ∧
            Transit.Described (freezer.contextOf memory place limit) before.length this ∧
            ∀ value landing stack,
              (landing.sp.toNat + this.copy.layout.returnOffset.toNat < UInt64.size →
                ∃ resumption after, current.resume handle value landing stack = .ok (resumption, after)) ∧
              ∀ resumption after, current.resume handle value landing stack = .ok (resumption, after) →
                Transit.Restored (freezer.contextOf memory place limit) before this rest landed landing
                  resumption.memory) := by
  obtain ⟨roster, _, valid⟩ := reachable.history
  obtain ⟨capture, handles, walked, named, installed, valid'⟩ := capture_spec valid captured
  obtain ⟨sources, copies⟩ := Capture.copies_eq walked
  refine ⟨capture, handles, walked, named, fun made asked => ?_, sources, ?_, ?_⟩
  · obtain rfl : chain = some made := asked
    unfold Chain.of? at named
    split at named
    next first last known led =>
      obtain ⟨inner, rfl⟩ := List.getLast?_eq_some_iff.mp led
      have member : inner ++ [last] ∈ (roster.add (inner ++ [last])).chains :=
        Roster.mem_chains_add.mpr (.inl ⟨rfl, by simp⟩)
      cases named
      rw [List.reverse_append]
      exact chainMembers_eq (valid'.linked _ member) (valid'.chain_distinct member)
    next => cases named
  · rw [← sources, List.length_map, ← List.length_map Transit.copy, copies]
    exact installed.held.length_eq
  intro apart isolated landed current handle left course away
  have movable := movable_of_walk walked apart
  obtain ⟨before, this, rest, next, split, length, now⟩ :=
    next_of_course walked apart (suspended_of_capture walked apart installed valid') course
  have member : this ∈ capture.transits frames := by simp [split]
  have movable' : ∀ frame ∈ this.copy :: rest.map Transit.copy, frame.Movable := by
    intro frame within
    apply movable
    rw [← copies, split, List.map_append]
    exact List.mem_append_right _ within
  obtain ⟨whole, small, closed⟩ := Capture.plain_of_transits walked member
  refine ⟨before, this, rest, split, length, Capture.described_of_walk walked split, fun value landing stack =>
    ⟨now.resume_run movable' closed, fun resumption after done => ?_⟩⟩
  obtain ⟨removed, thawed, finish, spliced⟩ := resume_spec now.valid done
  obtain ⟨advanced, _⟩ := now.resume movable' thawed
  have stands := FrozenFrame.splice_spec (advanced.layout ▸ whole)
    (by rw [advanced.size]; exact Nat.le_of_lt small) spliced
  rw [advanced.layout] at stands
  have plain : ∀ transit ∈ capture.transits frames, transit.Plain := fun transit within =>
    ⟨(Capture.plain_of_transits walked within).1,
      Nat.lt_trans (Capture.plain_of_transits walked within).2.1 (by decide)⟩
  exact Transit.restored_of_advanced split length plain isolated away
    (Capture.faithful_of_walk walked split (apart this member)) advanced stands

def leftBehind {α : Type} : Except Failure (α × Freezer) → Freezer
  | .ok (_, freezer) => freezer
  | .error _ => {}

private theorem leaves_behind {α : Type} {answer : Except Failure (α × Freezer)} (succeeds : answer.isOk = true) :
    ∃ value, answer = .ok (value, leftBehind answer) := by
  cases answer with
  | ok both => exact ⟨both.1, rfl⟩
  | error => cases succeeds

/-- The pair of frames is captured, and its chain is shown to the collector. Then the inner frame comes back. -/
def pairFrozen : Freezer :=
  leftBehind (capture { settings := { minArgBytes := 0 } } Capture.pairContext.memory Capture.pairContext.place
    Capture.pair Capture.pairContext.limit)

def pairShown : Freezer :=
  match pairFrozen.register ⟨1, 0⟩ with
  | .ok freezer => freezer
  | .error _ => {}

def pairHalved : Freezer :=
  leftBehind (pairShown.resume ⟨0, 0⟩ { object := 0, integer := 7 } (.to 0x6000 0x4000) .blank)

private theorem contextOf_pair : contextOf { settings := { minArgBytes := 0 } } Capture.pairContext.memory
    Capture.pairContext.place Capture.pairContext.limit = Capture.pairContext := rfl

private theorem captured_pair : capture { settings := { minArgBytes := 0 } } Capture.pairContext.memory
    Capture.pairContext.place Capture.pair Capture.pairContext.limit =
      .ok ((2, some ⟨⟨0, 0⟩, ⟨1, 0⟩, 2⟩), pairFrozen) := by
  have succeeds : (capture { settings := { minArgBytes := 0 } } Capture.pairContext.memory
      Capture.pairContext.place Capture.pair Capture.pairContext.limit).isOk = true := by
    decide +kernel
  obtain ⟨value, captured⟩ := leaves_behind succeeds
  have known : (capture { settings := { minArgBytes := 0 } } Capture.pairContext.memory Capture.pairContext.place
      Capture.pair Capture.pairContext.limit).toOption.map (·.1) = some (2, some ⟨⟨0, 0⟩, ⟨1, 0⟩, 2⟩) := by
    decide +kernel
  rw [captured] at known
  obtain rfl : value = _ := Option.some.inj known
  exact captured

private theorem registered_pair : pairFrozen.perform (.register ⟨1, 0⟩) = .ok pairShown := by
  have succeeds : (pairFrozen.register ⟨1, 0⟩).isOk = true := by decide +kernel
  show pairFrozen.register ⟨1, 0⟩ = .ok pairShown
  unfold pairShown
  cases answer : pairFrozen.register ⟨1, 0⟩ with
  | ok freezer => rfl
  | error =>
    rw [answer] at succeeds
    cases succeeds

private theorem resumed_pair : ∃ resumption, pairShown.resume ⟨0, 0⟩ { object := 0, integer := 7 }
    (.to 0x6000 0x4000) .blank = .ok (resumption, pairHalved) :=
  leaves_behind (by decide +kernel)

private theorem members_pair {handles : List Handle} (listed : pairFrozen.chainMembers ⟨1, 0⟩ = .ok handles.reverse) :
    handles = [⟨0, 0⟩, ⟨1, 0⟩] := by
  have known : (pairFrozen.chainMembers ⟨1, 0⟩).toOption = some [⟨1, 0⟩, ⟨0, 0⟩] := by decide +kernel
  rw [listed] at known
  rw [← List.reverse_inj, Option.some.inj known]
  rfl

theorem resume_restores_pair : ∃ before this rest resumption after,
    pairHalved.resume ⟨1, 0⟩ { object := 0, integer := 7 } (.to 0x7000 0x5000) .blank = .ok (resumption, after) ∧
      (Capture.ofWalk Capture.pairContext Capture.pair).transits Capture.pair = before ++ this :: rest ∧
      before.length = 1 ∧
      Transit.Restored Capture.pairContext before this rest [0x6000] (.to 0x7000 0x5000) resumption.memory := by
  have restores := resume_restores (.fresh _) captured_pair
  rw [contextOf_pair] at restores
  obtain ⟨made, handles, walked, _, listed, _, _, restores⟩ := restores
  obtain rfl := members_pair (listed _ rfl)
  have known : Capture.walk Capture.pairContext {} Capture.pair =
      .ok (2, Capture.ofWalk Capture.pairContext Capture.pair) :=
    Capture.walk_ofWalk (by decide +kernel)
  rw [known, Except.ok.injEq, Prod.mk.injEq] at walked
  obtain ⟨_, rfl⟩ := walked
  obtain ⟨_, resumed⟩ := resumed_pair
  have course : Course pairFrozen [⟨0, 0⟩, ⟨1, 0⟩] [0x6000] pairHalved [⟨1, 0⟩] :=
    .resume (.meanwhile (.register ⟨1, 0⟩) .still trivial registered_pair) resumed
  have apart : ∀ this ∈ (Capture.ofWalk Capture.pairContext Capture.pair).transits Capture.pair,
      this.slots.Pairwise Buffer.Apart := by
    decide +kernel
  have isolated : Transit.Isolated Capture.pairContext
      ((Capture.ofWalk Capture.pairContext Capture.pair).transits Capture.pair) := by
    refine ⟨by decide +kernel, ?_, by decide +kernel⟩
    have order : ((Capture.ofWalk Capture.pairContext Capture.pair).transits Capture.pair).Pairwise fun this other =>
        this.copy.buffer.base.toNat + this.copy.buffer.size ≤ other.copy.buffer.base.toNat := by
      decide +kernel
    refine order.imp fun below addr both => ?_
    unfold Transit.Owns at both
    omega
  have away : Transit.LandedApart ((Capture.ofWalk Capture.pairContext Capture.pair).transits Capture.pair)
      [0x6000] := by
    unfold Transit.LandedApart
    decide +kernel
  obtain ⟨before, this, rest, split, length, _, comes⟩ := restores apart isolated _ _ _ _ course away
  obtain ⟨runs, restored⟩ := comes { object := 0, integer := 7 } (.to 0x7000 0x5000) .blank
  obtain ⟨resumption, after, done⟩ := runs (by
    have bound := this.copy.layout.returnOffset.toNat_lt
    have place : (Landing.to 0x7000 0x5000).sp.toNat = 0x7000 := rfl
    rw [place, UInt64.size]
    omega)
  exact ⟨before, this, rest, resumption, after, done, split, length, restored resumption after done⟩

end Freezer
end CallStacks.Frozen
