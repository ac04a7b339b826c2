import Mathlib.Data.List.Forall2
import Mathlib.Data.List.Induction
import CallStacks.Green.SegmentList

/-! The segments of a green thread as a stack with recycling. Segments have no names of their own: the address of
a block may come up again after the block has been freed. They are told apart by the numbers of their
allocations, in a ledger that follows the calls. -/

namespace CallStacks.Green

private theorem insertIdx_between {α : Type} (used kept : List α) (item : α) :
    (used ++ kept).insertIdx used.length item = used ++ item :: kept := by
  induction used with
  | nil => rfl
  | cons first rest ih => rw [List.cons_append, List.length_cons, List.insertIdx_succ_cons, ih, List.cons_append]

private theorem forall₂_concat_left {α β : Type} {related : α → β → Prop} {items : List α} {item : α} {others : List β}
    (shown : List.Forall₂ related (items ++ [item]) others) :
    ∃ lower last, others = lower ++ [last] ∧ List.Forall₂ related items lower ∧ related item last := by
  have count := shown.length_eq
  rcases List.eq_nil_or_concat others with rfl | ⟨lower, last, rfl⟩
  · simp at count
  · rw [List.concat_eq_append] at *
    have same : lower.length = items.length := by simpa using count.symm
    have front := List.forall₂_take_append _ _ _ shown
    have back := List.forall₂_drop_append _ _ _ shown
    rw [same, List.take_left] at front
    rw [same, List.drop_left] at back
    exact ⟨lower, last, rfl, front, (List.forall₂_cons.mp back).1⟩

private theorem exists_of_several {α : Type} {items : List α} (several : 1 < items.length) :
    ∃ rest below top, items = rest ++ [below, top] := by
  rcases List.eq_nil_or_concat items with rfl | ⟨lower, top, rfl⟩
  · simp at several
  rcases List.eq_nil_or_concat lower with rfl | ⟨rest, below, rfl⟩
  · simp at several
  · exact ⟨rest, below, top, by simp⟩

namespace SegmentList

variable {list : SegmentList} {size : Word} {index : Nat}

theorem reusable?_eq_none_iff : list.reusable? size = none ↔
    ∀ segment, list.segments[list.next]? = some segment → segment.size < size := by
  unfold reusable?
  cases list.segments[list.next]? <;> simp [Option.filter_some]

theorem next_eq_zero_iff : list.next = 0 ↔ list.cursor = none := by
  unfold next
  cases list.cursor <;> simp

theorem next_eq_succ_iff : list.next = index + 1 ↔ list.cursor = some index := by
  unfold next
  cases list.cursor <;> simp

end SegmentList

namespace SegmentM

variable {place : Nat → Word} {list : SegmentList} {size redZone : Word} {segment : Segment} {refusal : Refusal}

theorem advance_reuse (found : list.reusable? size = some segment) :
    advance place size redZone list = .ok segment { list with cursor := some list.next } := by
  change (advance place size redZone).run list = _
  simp only [advance, EStateM.run_bind, EStateM.run_get, found]
  rfl

theorem advance_allocate (missing : list.reusable? size = none)
    (made : Segment.make (place list.allocated) size redZone = .ok segment) :
    advance place size redZone list = .ok segment
      { segments := list.segments.insertIdx list.next segment
        cursor := some list.next
        allocated := list.allocated + 1 } := by
  change (advance place size redZone).run list = _
  simp only [advance, EStateM.run_bind, EStateM.run_get, missing, made]
  rfl

theorem advance_unfit (missing : list.reusable? size = none)
    (refused : Segment.make (place list.allocated) size redZone = .error refusal) :
    advance place size redZone list = .error refusal list := by
  change (advance place size redZone).run list = _
  simp only [advance, EStateM.run_bind, EStateM.run_get, missing, refused]
  rfl

theorem advance_cases {after : SegmentList} (advanced : advance place size redZone list = .ok segment after) :
    list.reusable? size = some segment ∧ after = { list with cursor := some list.next } ∨
    list.reusable? size = none ∧ Segment.make (place list.allocated) size redZone = .ok segment ∧
      after = { segments := list.segments.insertIdx list.next segment
                cursor := some list.next
                allocated := list.allocated + 1 } := by
  cases found : list.reusable? size with
  | some spare =>
    rw [advance_reuse found] at advanced
    cases advanced
    exact .inl ⟨rfl, rfl⟩
  | none =>
    cases made : Segment.make (place list.allocated) size redZone with
    | ok fresh =>
      rw [advance_allocate found made] at advanced
      cases advanced
      exact .inr ⟨rfl, rfl, rfl⟩
    | error cause =>
      rw [advance_unfit found made] at advanced
      cases advanced

theorem advance_refused {after : SegmentList} (refused : advance place size redZone list = .error refusal after) :
    list.reusable? size = none ∧ Segment.make (place list.allocated) size redZone = .error refusal ∧ after = list := by
  cases found : list.reusable? size with
  | some spare =>
    rw [advance_reuse found] at refused
    cases refused
  | none =>
    cases made : Segment.make (place list.allocated) size redZone with
    | ok fresh =>
      rw [advance_allocate found made] at refused
      cases refused
    | error cause =>
      rw [advance_unfit found made] at refused
      cases refused
      exact ⟨rfl, rfl, rfl⟩

theorem retreat_pop {index : Nat} (above : list.cursor = some (index + 1))
    (below : list.segments[index]? = some segment) :
    retreat list = .ok segment { list with cursor := some index } := by
  change retreat.run list = _
  simp only [retreat, EStateM.run_bind, EStateM.run_get, above, below]
  rfl

theorem retreat_underflow (few : list.next ≤ 1) : retreat list = .error .underflow list := by
  change retreat.run list = _
  simp only [retreat, EStateM.run_bind, EStateM.run_get]
  obtain ⟨segments, cursor, allocated⟩ := list
  rcases cursor with _ | _ | index
  · rfl
  · rfl
  · simp only [SegmentList.next] at few
    omega

end SegmentM

inductive SegmentMove where
  | advance (size redZone : Word)
  | retreat
  | clear

namespace SegmentMove

/-- The segment in use afterwards; clearing leaves none. -/
def run (place : Nat → Word) : SegmentMove → SegmentM (Option Segment)
  | .advance size redZone => some <$> SegmentM.advance place size redZone
  | .retreat => some <$> SegmentM.retreat
  | .clear => do
    SegmentM.clear
    return none

def turn (place : Nat → Word) (move : SegmentMove) (list : SegmentList) :
    Except Refusal (Option Segment) × SegmentList :=
  match move.run place list with
  | .ok answer after => (.ok answer, after)
  | .error refusal after => (.error refusal, after)

variable {place : Nat → Word} {list after : SegmentList} {size redZone : Word} {segment : Segment} {refusal : Refusal}

theorem turn_advance_ok (done : SegmentM.advance place size redZone list = .ok segment after) :
    (advance size redZone).turn place list = (.ok (some segment), after) := by
  simp only [turn, run, Functor.map, EStateM.map, done]

theorem turn_advance_error (refused : SegmentM.advance place size redZone list = .error refusal after) :
    (advance size redZone).turn place list = (.error refusal, after) := by
  simp only [turn, run, Functor.map, EStateM.map, refused]

theorem turn_retreat_ok (done : SegmentM.retreat list = .ok segment after) :
    retreat.turn place list = (.ok (some segment), after) := by
  simp only [turn, run, Functor.map, EStateM.map, done]

theorem turn_retreat_error (refused : SegmentM.retreat list = .error refusal after) :
    retreat.turn place list = (.error refusal, after) := by
  simp only [turn, run, Functor.map, EStateM.map, refused]

end SegmentMove

/-- The segments of a list by the numbers of their allocations. -/
structure Ledger where
  /-- Every segment that was ever allocated. -/
  made : List Segment := []
  /-- The stack of the segments in use. Its top is last. -/
  inUse : List Nat := []
  /-- The segments to be used again, the next one first. -/
  spare : List Nat := []
  /-- The number of segments freed by clearing. -/
  freed : Nat := 0

namespace Ledger

variable {place : Nat → Word} {ledger : Ledger} {list : SegmentList}

def Made (ledger : Ledger) (number : Nat) (segment : Segment) : Prop := ledger.made[number]? = some segment

def Lacks (ledger : Ledger) (size : Word) : Prop :=
  ∀ number segment, ledger.spare.head? = some number → ledger.Made number segment → segment.size < size

/-- What each call may answer, and what it makes of the ledger. -/
inductive Turn (place : Nat → Word) (ledger : Ledger) : SegmentMove → Except Refusal (Option Segment) → Ledger → Prop
  | reuse {size redZone : Word} {number : Nat} {rest : List Nat} {segment : Segment}
      (first : ledger.spare = number :: rest) (known : ledger.Made number segment) (room : size ≤ segment.size) :
      Turn place ledger (.advance size redZone) (.ok (some segment))
        { ledger with inUse := ledger.inUse ++ [number], spare := rest }
  | allocate {size redZone : Word} {segment : Segment} (lacks : ledger.Lacks size)
      (made : Segment.make (place ledger.made.length) size redZone = .ok segment) :
      Turn place ledger (.advance size redZone) (.ok (some segment))
        { ledger with made := ledger.made ++ [segment], inUse := ledger.inUse ++ [ledger.made.length] }
  | unfit {size redZone : Word} {refusal : Refusal} (lacks : ledger.Lacks size)
      (refused : Segment.make (place ledger.made.length) size redZone = .error refusal) :
      Turn place ledger (.advance size redZone) (.error refusal) ledger
  | pop {rest : List Nat} {below top : Nat} {segment : Segment} (stacked : ledger.inUse = rest ++ [below, top])
      (known : ledger.Made below segment) :
      Turn place ledger .retreat (.ok (some segment))
        { ledger with inUse := rest ++ [below], spare := top :: ledger.spare }
  | underflow (few : ledger.inUse.length ≤ 1) : Turn place ledger .retreat (.error .underflow) ledger
  | clear : Turn place ledger .clear (.ok none)
      { ledger with inUse := [], spare := [], freed := ledger.made.length }

/-- A ledger tells what is in a segment list: the segments up to the cursor are in use, those past it are
spare, and each segment allocated since the last clearing is one of them, once. -/
structure Tells (ledger : Ledger) (list : SegmentList) : Prop where
  inUse : List.Forall₂ ledger.Made ledger.inUse (list.segments.take list.next)
  spare : List.Forall₂ ledger.Made ledger.spare (list.segments.drop list.next)
  depth : ledger.inUse.length = list.next
  idle : ledger.inUse = [] → ledger.spare = []
  allocated : ledger.made.length = list.allocated
  freed : ledger.freed ≤ ledger.made.length
  once : (ledger.inUse ++ ledger.spare).Perm (List.range' ledger.freed (ledger.made.length - ledger.freed))

theorem tells_fresh : Tells {} {} := by
  constructor <;> simp [SegmentList.next]

namespace Tells

theorem parts (tells : ledger.Tells list) : ∃ used kept, list.segments = used ++ kept ∧ list.next = used.length ∧
    List.Forall₂ ledger.Made ledger.inUse used ∧ List.Forall₂ ledger.Made ledger.spare kept :=
  ⟨_, _, (List.take_append_drop _ _).symm, tells.depth.symm.trans tells.inUse.length_eq, tells.inUse, tells.spare⟩

private theorem recent (tells : ledger.Tells list) {number : Nat} (within : number ∈ ledger.inUse ++ ledger.spare) :
    ledger.freed ≤ number ∧ number < ledger.made.length := by
  have range := List.mem_range'_1.mp (tells.once.mem_iff.mp within)
  have freed := tells.freed
  omega

private theorem distinct (tells : ledger.Tells list) : (ledger.inUse ++ ledger.spare).Nodup :=
  tells.once.nodup_iff.mpr (List.nodup_range' ..)

private theorem of_parts (used kept : List Segment) (split : list.segments = used ++ kept)
    (depth : list.next = used.length)
    (inUse : List.Forall₂ ledger.Made ledger.inUse used) (spare : List.Forall₂ ledger.Made ledger.spare kept)
    (idle : ledger.inUse = [] → ledger.spare = []) (allocated : ledger.made.length = list.allocated)
    (freed : ledger.freed ≤ ledger.made.length)
    (once : (ledger.inUse ++ ledger.spare).Perm (List.range' ledger.freed (ledger.made.length - ledger.freed))) :
    ledger.Tells list := by
  refine ⟨?_, ?_, inUse.length_eq.trans depth.symm, idle, allocated, freed, once⟩
  · rwa [split, depth, List.take_left]
  · rwa [split, depth, List.drop_left]

private theorem after_cursor (tells : ledger.Tells list) :
    list.segments[list.next]? = ledger.spare.head?.bind (ledger.made[·]?) := by
  obtain ⟨used, kept, split, depth, _, shown⟩ := tells.parts
  rw [split, depth, List.getElem?_append_right (Nat.le_refl _), Nat.sub_self]
  generalize ledger.spare = spare at shown
  cases shown with
  | nil => rfl
  | cons known _ => exact known.symm

private theorem lacks_iff (tells : ledger.Tells list) {size : Word} :
    ledger.Lacks size ↔ list.reusable? size = none := by
  rw [SegmentList.reusable?_eq_none_iff, tells.after_cursor]
  simp only [Lacks, Made, Option.bind_eq_some_iff]
  exact ⟨fun lacks segment ⟨number, first, known⟩ => lacks number segment first known,
    fun small number segment first known => small segment ⟨number, first, known⟩⟩

theorem cursor_eq_none_iff (tells : ledger.Tells list) :
    list.cursor = none ↔ list.segments = [] := by
  obtain ⟨used, kept, split, depth, shown, more⟩ := tells.parts
  rw [← SegmentList.next_eq_zero_iff, depth, split, List.append_eq_nil_iff, List.length_eq_zero_iff]
  refine ⟨fun none => ⟨none, ?_⟩, And.left⟩
  rw [none, List.forall₂_nil_right_iff] at shown
  rw [tells.idle shown, List.forall₂_nil_left_iff] at more
  exact more

theorem cursor_lt (tells : ledger.Tells list) {index : Nat} (cursor : list.cursor = some index) :
    index < list.segments.length := by
  obtain ⟨used, kept, split, depth, _⟩ := tells.parts
  rw [SegmentList.next_eq_succ_iff.mpr cursor] at depth
  rw [split, List.length_append]
  omega

theorem current?_isSome_iff (tells : ledger.Tells list) : list.current?.isSome ↔ list.segments ≠ [] := by
  rw [ne_eq, ← tells.cursor_eq_none_iff, SegmentList.current?]
  cases cursor : list.cursor with
  | none => simp
  | some index => simp [tells.cursor_lt cursor]

private theorem reuse (tells : ledger.Tells list) {number : Nat} {rest : List Nat}
    (first : ledger.spare = number :: rest) :
    Tells { ledger with inUse := ledger.inUse ++ [number], spare := rest } { list with cursor := some list.next } := by
  obtain ⟨used, kept, split, depth, shown, more⟩ := tells.parts
  rw [first] at more
  obtain ⟨segment, others, known, further, rfl⟩ := List.forall₂_cons_left_iff.mp more
  have once := tells.once
  rw [first, List.append_cons] at once
  rw [List.append_cons] at split
  refine .of_parts _ _ split ?_ (List.rel_append shown (.cons known .nil)) further (by simp) tells.allocated tells.freed once
  change list.next + 1 = _
  rw [depth, List.length_append, List.length_singleton]

private theorem made_more {numbers : List Nat} {segments : List Segment}
    (shown : List.Forall₂ ledger.Made numbers segments)
    (segment : Segment) : List.Forall₂ (Made { ledger with made := ledger.made ++ [segment] }) numbers segments := by
  apply shown.imp
  intro number other known
  exact (List.getElem?_append_left (List.getElem?_eq_some_iff.mp known).1).trans known

private theorem allocate (tells : ledger.Tells list) (segment : Segment) :
    Tells { ledger with made := ledger.made ++ [segment], inUse := ledger.inUse ++ [ledger.made.length] }
      { segments := list.segments.insertIdx list.next segment
        cursor := some list.next
        allocated := list.allocated + 1 } := by
  obtain ⟨used, kept, split, depth, shown, more⟩ := tells.parts
  have freed := tells.freed
  have own : Made { ledger with made := ledger.made ++ [segment] } ledger.made.length segment :=
    List.getElem?_concat_length
  refine .of_parts (used ++ [segment]) kept ?_ ?_ (List.rel_append (made_more shown segment)
    (.cons own .nil)) (made_more more segment) (by simp) ?_ ?_ ?_
  · change list.segments.insertIdx list.next segment = _
    rw [split, depth, insertIdx_between, List.append_assoc]
    rfl
  · change list.next + 1 = _
    rw [depth, List.length_append, List.length_singleton]
  · rw [List.length_append, List.length_singleton, tells.allocated]
  · exact Nat.le_trans freed (by simp)
  · have count : ledger.made.length + 1 - ledger.freed = ledger.made.length - ledger.freed + 1 := by omega
    have next : ledger.freed + (ledger.made.length - ledger.freed) = ledger.made.length := by omega
    rw [List.length_append, List.length_singleton, count, List.range'_1_concat, next, List.append_assoc]
    exact List.perm_middle.trans ((List.perm_append_singleton _ _).symm.trans (tells.once.append_right _))

private theorem pop (tells : ledger.Tells list) {rest : List Nat} {below top : Nat}
    (stacked : ledger.inUse = rest ++ [below, top]) :
    Tells { ledger with inUse := rest ++ [below], spare := top :: ledger.spare }
      { list with cursor := some rest.length } := by
  obtain ⟨used, kept, split, depth, shown, more⟩ := tells.parts
  have once := tells.once
  rw [stacked, List.append_cons] at shown once
  obtain ⟨lower, last, rfl, shown, known⟩ := forall₂_concat_left shown
  rw [List.append_assoc] at split once
  refine .of_parts _ _ split ?_ shown (.cons known more) (by simp) tells.allocated tells.freed once
  change rest.length + 1 = _
  rw [← shown.length_eq, List.length_append, List.length_singleton]

theorem clear (tells : ledger.Tells list) :
    Tells { ledger with inUse := [], spare := [], freed := ledger.made.length }
      { list with segments := [], cursor := none } := by
  refine ⟨.nil, .nil, rfl, fun _ => rfl, tells.allocated, Nat.le_refl _, ?_⟩
  rw [Nat.sub_self]
  exact .nil

theorem below_cursor (tells : ledger.Tells list) {rest : List Nat} {below top : Nat}
    (stacked : ledger.inUse = rest ++ [below, top]) : list.cursor = some (rest.length + 1) ∧
      ∃ segment, list.segments[rest.length]? = some segment ∧ ledger.Made below segment := by
  obtain ⟨used, kept, split, depth, shown, _⟩ := tells.parts
  rw [stacked, List.append_cons] at shown
  obtain ⟨lower, last, rfl, shown, _⟩ := forall₂_concat_left shown
  obtain ⟨lowest, segment, rfl, shown, known⟩ := forall₂_concat_left shown
  have count := shown.length_eq
  constructor
  · apply SegmentList.next_eq_succ_iff.mp
    rw [depth, count]
    simp
  · refine ⟨segment, ?_, known⟩
    rw [split, count]
    simp

/-- Every call does as the ledger says, and a call that fails does nothing. -/
theorem turn (tells : ledger.Tells list) (place : Nat → Word) (move : SegmentMove) :
    ∃ next, ledger.Turn place move (move.turn place list).1 next ∧ next.Tells (move.turn place list).2 ∧
      ∀ refusal, (move.turn place list).1 = .error refusal → (move.turn place list).2 = list := by
  cases move with
  | advance size redZone =>
    cases found : list.reusable? size with
    | some segment =>
      obtain ⟨known, room⟩ := Option.filter_eq_some_iff.mp found
      rw [tells.after_cursor] at known
      obtain ⟨number, first, known⟩ := Option.bind_eq_some_iff.mp known
      obtain ⟨rest, first⟩ := List.head?_eq_some_iff.mp first
      rw [SegmentMove.turn_advance_ok (SegmentM.advance_reuse found)]
      exact ⟨_, .reuse first known (of_decide_eq_true room), tells.reuse first, nofun⟩
    | none =>
      have lacks := tells.lacks_iff.mpr found
      cases made : Segment.make (place list.allocated) size redZone with
      | ok segment =>
        rw [SegmentMove.turn_advance_ok (SegmentM.advance_allocate found made)]
        exact ⟨_, .allocate lacks (tells.allocated ▸ made), tells.allocate segment, nofun⟩
      | error refusal =>
        rw [SegmentMove.turn_advance_error (SegmentM.advance_unfit found made)]
        exact ⟨_, .unfit lacks (tells.allocated ▸ made), tells, fun _ _ => rfl⟩
  | retreat =>
    rcases Nat.lt_or_ge 1 ledger.inUse.length with several | few
    · obtain ⟨rest, below, top, stacked⟩ := exists_of_several several
      obtain ⟨cursor, segment, under, known⟩ := tells.below_cursor stacked
      rw [SegmentMove.turn_retreat_ok (SegmentM.retreat_pop cursor under)]
      exact ⟨_, .pop stacked known, tells.pop stacked, nofun⟩
    · rw [SegmentMove.turn_retreat_error (SegmentM.retreat_underflow (tells.depth ▸ few))]
      exact ⟨_, .underflow few, tells, fun _ _ => rfl⟩
  | clear => exact ⟨_, .clear, tells.clear, nofun⟩

private theorem take_of_prefix {after : SegmentList} {next : Ledger} (tells : ledger.Tells list)
    (later : next.Tells after)
    (numbers : ledger.inUse <+: next.inUse ++ next.spare) (made : ledger.made <+: next.made) :
    list.segments.take list.next <+: after.segments := by
  obtain ⟨others, split⟩ := numbers
  have shown : List.Forall₂ next.Made (ledger.inUse ++ others) after.segments := by
    rw [split, ← List.take_append_drop after.next after.segments]
    exact List.rel_append later.inUse later.spare
  have front := List.forall₂_take ledger.inUse.length shown
  rw [List.take_left] at front
  have known : List.Forall₂ next.Made ledger.inUse (list.segments.take list.next) := by
    apply tells.inUse.imp
    intro number segment known
    obtain ⟨more, grown⟩ := made
    rw [Made, ← grown]
    exact (List.getElem?_append_left (List.getElem?_eq_some_iff.mp known).1).trans known
  have same := List.right_unique_forall₂' (fun _ _ _ one other => Option.some.inj (one.symm.trans other)) known front
  rw [same]
  exact List.take_prefix _ _

end Tells

variable {move : SegmentMove} {answer : Except Refusal (Option Segment)} {next : Ledger}

namespace Turn

/-- Only clearing frees a segment, and nothing changes one. -/
theorem prefixes (entry : ledger.Turn place move answer next) (keeps : move ≠ .clear) :
    ledger.inUse <+: next.inUse ++ next.spare ∧ ledger.made <+: next.made := by
  cases entry with
  | reuse => exact ⟨by simp, List.prefix_rfl⟩
  | allocate => exact ⟨by simp, List.prefix_append _ _⟩
  | unfit | underflow => exact ⟨List.prefix_append _ _, List.prefix_rfl⟩
  | pop stacked => exact ⟨by simp [stacked], List.prefix_rfl⟩
  | clear => exact absurd rfl keeps

theorem pushes {size redZone : Word} {segment : Option Segment} (tells : ledger.Tells list)
    (entry : ledger.Turn place (.advance size redZone) (.ok segment) next) :
    ∃ number ∉ ledger.inUse, ∃ pushed, segment = some pushed ∧ next.inUse = ledger.inUse ++ [number] ∧
      next.Made number pushed ∧ size ≤ pushed.size := by
  cases entry with
  | @reuse _ _ number rest pushed first known room =>
    refine ⟨number, fun within => ?_, pushed, rfl, rfl, known, room⟩
    have apart := (List.nodup_append.mp tells.distinct).2.2 number within number
    exact apart (first ▸ List.mem_cons_self) rfl
  | @allocate _ _ pushed lacks made =>
    have room : size ≤ pushed.size := (Segment.make_eq_ok_iff.mp made).2.2 ▸ UInt64.le_refl size
    refine ⟨_, fun within => ?_, pushed, rfl, rfl, List.getElem?_concat_length, room⟩
    exact absurd (tells.recent (List.mem_append_left _ within)).2 (Nat.lt_irrefl _)

/-- A successful advance allocates exactly if the next spare segment will not do. -/
theorem allocates_iff {size redZone : Word} {segment : Option Segment}
    (entry : ledger.Turn place (.advance size redZone) (.ok segment) next) :
    next.made.length = ledger.made.length + 1 ∧ ledger.Lacks size ∨ next.made = ledger.made ∧ ¬ ledger.Lacks size := by
  cases entry with
  | @reuse _ _ number _ pushed first known room =>
    refine .inr ⟨rfl, fun lacks => ?_⟩
    have small := lacks number pushed (by rw [first]; rfl) known
    exact absurd room (UInt64.not_le.mpr small)
  | allocate lacks => exact .inl ⟨by simp, lacks⟩

private theorem fails_iff (entry : ledger.Turn place .retreat answer next) :
    (∃ refusal, answer = .error refusal) ↔ ledger.inUse.length ≤ 1 := by
  cases entry with
  | pop stacked => simp [stacked]
  | underflow few => simp [few]

private theorem pops {segment : Option Segment} (entry : ledger.Turn place .retreat (.ok segment) next) :
    ∃ top, ledger.inUse = next.inUse ++ [top] ∧ next.spare = top :: ledger.spare := by
  cases entry with
  | @pop rest below top _ stacked =>
    exact ⟨top, stacked.trans (List.append_cons rest below [top]), rfl⟩

private theorem unchanged {refusal : Refusal} (entry : ledger.Turn place move (.error refusal) next) :
    next = ledger := by
  cases entry <;> rfl

end Turn
end Ledger

inductive Booked (place : Nat → Word) : List SegmentMove → SegmentList → Ledger → Prop
  | fresh : Booked place [] {} {}
  | turn {moves : List SegmentMove} {list : SegmentList} {ledger next : Ledger} (move : SegmentMove)
      (past : Booked place moves list ledger) (entry : ledger.Turn place move (move.turn place list).1 next) :
      Booked place (moves ++ [move]) (move.turn place list).2 next

def SegmentList.replay (place : Nat → Word) (moves : List SegmentMove) : SegmentList :=
  moves.foldl (fun list move => (move.turn place list).2) {}

private theorem exists_booked (place : Nat → Word) (moves : List SegmentMove) :
    ∃ ledger, Booked place moves (.replay place moves) ledger ∧ ledger.Tells (.replay place moves) := by
  induction moves using List.reverseRecOn with
  | nil => exact ⟨{}, .fresh, Ledger.tells_fresh⟩
  | append_singleton moves move ih =>
    obtain ⟨ledger, booked, tells⟩ := ih
    obtain ⟨next, entry, later, _⟩ := tells.turn place move
    have step : SegmentList.replay place (moves ++ [move]) = (move.turn place (.replay place moves)).2 := by
      simp only [SegmentList.replay, List.foldl_append, List.foldl_cons, List.foldl_nil]
    exact ⟨next, step ▸ .turn move booked entry, step ▸ later⟩

/-- The segments of a green thread are a stack with recycling: after any calls a ledger tells what each segment of
the list is, and each further call does to the list what it does to the ledger. -/
theorem SegmentList.recycles (place : Nat → Word) (moves : List SegmentMove) :
    ∃ ledger, Booked place moves (replay place moves) ledger ∧ ledger.Tells (replay place moves) ∧
    let list := replay place moves
    (list.cursor = none ↔ list.segments = []) ∧ (∀ index, list.cursor = some index → index < list.segments.length) ∧
    ∀ move answer after, SegmentMove.turn place move list = (answer, after) →
      ∃ next, ledger.Turn place move answer next ∧ next.Tells after ∧
        (∀ size redZone segment, move = .advance size redZone → answer = .ok segment →
          (∃ number ∉ ledger.inUse, ∃ pushed, segment = some pushed ∧ next.inUse = ledger.inUse ++ [number] ∧
            next.Made number pushed ∧ size ≤ pushed.size) ∧
          ((∀ spare, list.segments[list.next]? = some spare → spare.size < size) ∧ after.allocated = list.allocated + 1 ∨
            (∃ spare, list.segments[list.next]? = some spare ∧ size ≤ spare.size) ∧ after.allocated = list.allocated)) ∧
        (move = .retreat → ((∃ refusal, answer = .error refusal) ↔ ledger.inUse.length ≤ 1) ∧
          ∀ segment, answer = .ok segment → ∃ top, ledger.inUse = next.inUse ++ [top]) ∧
        (∀ refusal, answer = .error refusal → after = list ∧ next = ledger) ∧
        (move ≠ .clear → ledger.inUse <+: next.inUse ++ next.spare ∧ ledger.made <+: next.made ∧
          list.segments.take list.next <+: after.segments) := by
  obtain ⟨ledger, booked, tells⟩ := exists_booked place moves
  refine ⟨ledger, booked, tells, tells.cursor_eq_none_iff, fun index => tells.cursor_lt,
    fun move answer after done => ?_⟩
  obtain ⟨next, entry, later, unchanged⟩ := tells.turn place move
  rw [done] at entry later unchanged
  refine ⟨next, entry, later, ?_, ?_, ?_, ?_⟩
  · rintro size redZone segment rfl rfl
    refine ⟨entry.pushes tells, ?_⟩
    have small := tells.lacks_iff.trans (@reusable?_eq_none_iff _ size)
    rw [← tells.allocated, ← later.allocated, ← small]
    rcases entry.allocates_iff with ⟨more, lacks⟩ | ⟨same, room⟩
    · exact .inl ⟨lacks, more⟩
    · refine .inr ⟨?_, by rw [same]⟩
      simpa only [small, not_forall, UInt64.not_lt, exists_prop] using room
  · rintro rfl
    refine ⟨entry.fails_iff, ?_⟩
    rintro segment rfl
    obtain ⟨top, popped, _⟩ := entry.pops
    exact ⟨top, popped⟩
  · rintro refusal rfl
    exact ⟨unchanged refusal rfl, entry.unchanged⟩
  · intro keeps
    obtain ⟨numbers, made⟩ := entry.prefixes keeps
    exact ⟨numbers, made, tells.take_of_prefix later numbers made⟩

end CallStacks.Green
