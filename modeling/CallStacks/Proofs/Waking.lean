import CallStacks.Proofs.PointerMoves
import CallStacks.Proofs.RecordedPlaces

/-! What a resumed frame leaves behind in its chain. The frame and its callers are looked at: their pointers
into its buffer are moved, and any pointer of theirs makes the chain active. Its callees are passed over. When
frames come back from the innermost out there are none. -/

namespace CallStacks.Frozen

namespace Shift

variable {shift : Shift} {word : Word}

/-- No address of the old range moves to another one of it. -/
def Clears (shift : Shift) : Prop := ∀ addr, shift.covers addr = true → shift.covers (addr + shift.distance) = false

theorem Clears.outside (clears : shift.Clears) (word : Word) :
    shift.covers ((shift.move? word).getD word) = false := by
  cases inside : shift.covers word with
  | true =>
    rw [move?, inside, if_pos rfl, Option.getD_some]
    exact clears word inside
  | false =>
    rw [move?, inside, if_neg Bool.false_ne_true, Option.getD_none]
    exact inside

theorem Clears.move?_eq_none (clears : shift.Clears) (word : Word) :
    shift.move? ((shift.move? word).getD word) = none := by
  rw [move?, clears.outside word]
  rfl

end Shift

namespace Buffer

variable {buffer after : Buffer} {offsets left : List Nat} {offset other : Nat} {shift : Shift}

def Separate (offset other : Nat) : Prop := offset = other ∨ Apart offset other

instance : DecidableRel Separate := fun offset other =>
  inferInstanceAs (Decidable (offset = other ∨ Apart offset other))

/-- A word may be moved more than once if what has moved stays where it is. -/
theorem read_relocateAll (clears : shift.Clears) (separate : offsets.Pairwise Separate)
    (done : relocateAll shift offsets buffer = .ok (left, after)) :
    (∀ offset ∈ offsets, ∃ word, buffer.read offset = .ok word ∧
      after.read offset = .ok ((shift.move? word).getD word)) ∧
    ∀ other, (∀ offset ∈ offsets, Apart offset other) → after.read other = buffer.read other := by
  induction offsets generalizing buffer left with
  | nil =>
    cases done
    exact ⟨by simp, fun _ _ => rfl⟩
  | cons offset others ih =>
    obtain ⟨first, separate⟩ := List.pairwise_cons.mp separate
    obtain ⟨⟨middle, flag⟩, ran, done⟩ := CallStacks.Failure.bind_eq_ok.mp done
    obtain ⟨⟨remaining, last⟩, more, done⟩ := CallStacks.Failure.bind_eq_ok.mp done
    cases done
    have one := relocate_spec ran
    obtain ⟨word, read, moved, _⟩ := one.slot
    obtain ⟨slots, rest⟩ := ih separate more
    have untouched : ∀ other, Apart offset other → middle.read other = buffer.read other := fun other apart =>
      read_congr one.size fun index covered => one.rest index (apart.not_covered covered)
    -- a later move of the same word finds nothing to do
    have settled : after.read offset = .ok ((shift.move? word).getD word) := by
      by_cases again : offset ∈ others
      · obtain ⟨word', read', moved'⟩ := slots offset again
        obtain rfl : (shift.move? word).getD word = word' := Except.ok.inj (moved.symm.trans read')
        rw [moved', clears.move?_eq_none, Option.getD_none]
      · rw [rest offset fun other within => ?_, moved]
        rcases first other within with same | apart
        · exact absurd (same ▸ within) again
        · exact Or.symm apart
    refine ⟨fun other within => ?_, fun other apart => ?_⟩
    · by_cases same : other = offset
      · exact ⟨word, same ▸ read, same ▸ settled⟩
      · have inner : other ∈ others := (List.mem_cons.mp within).resolve_left same
        obtain ⟨word', read', moved'⟩ := slots other inner
        rw [untouched other ((first other inner).resolve_left (Ne.symm same))] at read'
        exact ⟨word', read', moved'⟩
    · rw [rest other fun place within => apart place (List.mem_cons_of_mem _ within),
        untouched other (apart offset List.mem_cons_self)]

end Buffer

namespace FrozenFrame

variable {frame swept : FrozenFrame} {sp addr word : Word}

def Refers (frame : FrozenFrame) (word : Word) : Prop := ∃ place ∈ frame.places, frame.buffer.read place = .ok word

def LandsClear (frame : FrozenFrame) (sp : Word) : Prop :=
  ∀ offset < frame.buffer.size, ¬ frame.Owns (sp + UInt64.ofNat offset)

instance : Decidable (frame.LandsClear sp) := inferInstanceAs (Decidable (∀ _, _ → _))

theorem clears_shiftTo (trimmed : frame.Trimmed) (clear : frame.LandsClear sp) : (frame.shiftTo sp).Clears := by
  intro addr covered
  obtain ⟨above, below⟩ := (covers_shiftTo trimmed.small).mp covered
  rw [← Bool.not_eq_true, covers_shiftTo trimmed.small]
  have start : frame.destination sp = sp := by
    rw [destination, trimmed.whole]
    exact UInt64.add_zero sp
  have place : addr + (frame.shiftTo sp).distance = sp + UInt64.ofNat (addr.toNat - frame.buffer.base.toNat) := by
    have offset : addr - frame.buffer.base = UInt64.ofNat (addr.toNat - frame.buffer.base.toNat) := by
      rw [← UInt64.toNat_inj, UInt64.toNat_sub_of_le _ _ (UInt64.le_iff_toNat_le.mpr above), UInt64.toNat_ofNat',
        Nat.mod_eq_of_lt (Nat.lt_of_le_of_lt (Nat.sub_le _ _) addr.toNat_lt)]
    rw [shiftTo, Shift.between, start, ← offset]
    grind
  rw [place]
  exact clear _ (by omega)

end FrozenFrame

namespace Store

variable {store final : Store} {roster : Roster} {callees callers : List Handle} {handle other : Handle} {sp : Word}
  {removed frame old : FrozenFrame}

/-- If the frame or a caller of it has pointers, all that is left of the chain is active; otherwise floors stay,
and a callee that becomes head takes the lowest floor of those left. -/
theorem Thawed.floors_left (thawed : Thawed store roster handle sp removed final) (valid : Represents store roster)
    (member : callees ++ handle :: callers ∈ roster.chains) (within : other ∈ callees ++ callers) :
    final.floor? other = if store.anyInteriors (handle :: callers) then some Generation.active
      else if callers = [] ∧ callees.getLast? = some other then (store.floors callees).min?
      else store.floor? other := by
  obtain ⟨fresh, _⟩ := List.nodup_cons.mp (List.nodup_middle.mp (valid.chain_distinct member))
  obtain ⟨woken, wakes, detached⟩ := thawed.left callees callers member
  rw [detached.floor other fun same => fresh (same ▸ within)]
  have floors := wakes.floors
  split at floors
  next wakes =>
    have active : ∀ member ∈ callees ++ callers, woken.floor? member = some Generation.active := fun member inside =>
      floors member (by simp only [List.mem_append, List.mem_cons] at inside ⊢; exact inside.imp id .inr)
    rw [if_pos wakes]
    split
    next last =>
      have inner := List.mem_of_getLast? last.2
      apply List.min?_eq_some_iff.mpr
      refine ⟨List.mem_filterMap.mpr ⟨other, inner, active other within⟩, fun floor known => ?_⟩
      obtain ⟨member, inside, now⟩ := List.mem_filterMap.mp known
      rw [active member (List.mem_append_left _ inside)] at now
      exact Int.le_of_eq (Option.some.inj now)
    next => exact active other within
  next sleeps =>
    have same : woken.floor? = store.floor? := funext floors
    rw [if_neg sleeps, Store.floors, same, Store.floors]

theorem Thawed.chain_left (thawed : Thawed store roster handle sp removed final) (valid : Represents store roster)
    (member : callees ++ handle :: callers ∈ roster.chains) {head : Handle}
    (last : (callees ++ callers).getLast? = some head) :
    final.chainMembers head = .ok (callees ++ callers).reverse := by
  obtain ⟨fresh, _⟩ := List.nodup_cons.mp (List.nodup_middle.mp (valid.chain_distinct member))
  obtain ⟨inner, same⟩ := List.getLast?_eq_some_iff.mp last
  have still : inner ++ [head] ∈ (roster.without [handle]).chains := by
    rw [Roster.chains_without, mem_thinned]
    exact ⟨by simp, _, member, (filter_gap fresh).trans same⟩
  rw [same, List.reverse_append]
  exact chainMembers_eq (thawed.valid.linked _ still) (thawed.valid.chain_distinct still)

end Store

namespace Freezer
open Store

variable {freezer after : Freezer} {handle : Handle} {frame : FrozenFrame} {value : ResumeValue} {landing : Landing}
  {memory : Memory} {resumption : Resumption}

/-- A caller that has followed a frame out of its buffer holds no pointer into it. -/
theorem follows_of_sweep {old swept : FrozenFrame} {sp : Word} (trimmed : frame.Trimmed)
    (whole : old.layout.unrecorded = 0) (clear : frame.LandsClear sp) (separate : old.places.Pairwise Buffer.Separate)
    (done : old.sweep (frame.shiftTo sp) = .ok swept) :
    (∀ place ∈ old.places, ∃ word, old.buffer.read place = .ok word ∧
      swept.buffer.read place = .ok (((frame.shiftTo sp).move? word).getD word)) ∧
    ∀ word, swept.Refers word → ¬ frame.Owns word := by
  obtain ⟨⟨left, moved⟩, same⟩ := FrozenFrame.sweep_spec whole done
  have clears := FrozenFrame.clears_shiftTo trimmed clear
  have slots := (Buffer.read_relocateAll clears separate moved).1
  refine ⟨slots, fun word ⟨place, within, read⟩ owned => ?_⟩
  have places : swept.places = old.places := by rw [same]; rfl
  obtain ⟨before, _, now⟩ := slots place (places ▸ within)
  obtain rfl : word = _ := Except.ok.inj (read.symm.trans now)
  have covered : (frame.shiftTo sp).covers _ = true := (FrozenFrame.covers_shiftTo trimmed.small).mpr owned
  rw [clears.outside] at covered
  cases covered

/-- What resuming a frame does to the rest of its chain. Pointers of the frame or of its callers make all that is
left active, and the callers' pointers into its buffer follow it, so that none of them leads there any more. Its
callees keep their bytes, whatever these point to, and without pointers in the frame and its callers floors stay as
they are, but for a callee that becomes head. -/
theorem Reachable.resume_leaves (reachable : Reachable freezer) (live : freezer.frame handle = .ok frame)
    (done : freezer.resume handle value landing memory = .ok (resumption, after)) :
    ∃ callees callers head,
      freezer.chainHead handle = .ok head ∧
      freezer.chainMembers head = .ok (callees ++ handle :: callers).reverse ∧
      (∀ top, (callees ++ callers).getLast? = some top → after.chainMembers top = .ok (callees ++ callers).reverse) ∧
      (∀ other ∈ callees ++ callers, after.store.floor? other =
        if freezer.store.anyInteriors (handle :: callers) then some Generation.active
        else if callers = [] ∧ callees.getLast? = some other then (freezer.store.floors callees).min?
        else freezer.store.floor? other) ∧
      (∀ other ∈ callees, ∃ old left, freezer.frame other = .ok old ∧ after.frame other = .ok left ∧
        left.layout = old.layout ∧ left.buffer = old.buffer) ∧
      ∀ other ∈ callers, ∃ old left, freezer.frame other = .ok old ∧ after.frame other = .ok left ∧
        left.layout = old.layout ∧
        (frame.LandsClear landing.sp → old.places.Pairwise Buffer.Separate →
          (∀ place ∈ old.places, ∃ word, old.buffer.read place = .ok word ∧
            left.buffer.read place = .ok (((frame.shiftTo landing.sp).move? word).getD word)) ∧
          ∀ word, left.Refers word → ¬ frame.Owns word) := by
  obtain ⟨roster, _, valid⟩ := reachable.history
  obtain ⟨removed, thawed, _⟩ := resume_spec valid done
  have live := StoreM.frame_eq_ok.mp live
  obtain ⟨callees, callers, started, middle, member, live', swept, _, _, content⟩ := thawed.moved
  obtain rfl : frame = started := Option.some.inj (live.symm.trans live')
  obtain ⟨_, head, _, led⟩ := valid.chainHead_of_member member (show handle ∈ _ by simp)
  have distinct := valid.chain_distinct member
  obtain ⟨fresh, _⟩ := List.nodup_cons.mp (List.nodup_middle.mp distinct)
  -- a frame that is left has the content that the sweep has given it
  have settled : ∀ other ∈ callees ++ callers, ∀ moved, middle.arena.find? other = some moved →
      ∃ left, after.frame other = .ok left ∧ left.layout = moved.layout ∧ left.buffer = moved.buffer := by
    intro other within moved held
    have same := content other fun same => fresh (same ▸ within)
    rw [held, Option.map_some, Option.map_eq_some_iff] at same
    obtain ⟨left, now, same⟩ := same
    exact ⟨left, StoreM.frame_eq_ok.mpr now, congrArg (·.2.1) same, congrArg (·.1) same⟩
  refine ⟨callees, callers, head, led, chainMembers_of_chainHead valid.toRepresents member led,
    fun top last => thawed.chain_left valid.toRepresents member last,
    fun other within => thawed.floors_left valid.toRepresents member within, fun other within => ?_,
    fun other within => ?_⟩
  · obtain ⟨old, known⟩ := Option.isSome_iff_exists.mp (valid.live_of_mem member (List.mem_append_left _ within))
    have away : other ∉ handle :: callers := fun also => (List.nodup_append.mp distinct).2.2 other within other also rfl
    obtain ⟨left, now, layout, buffer⟩ :=
      settled other (List.mem_append_left _ within) old ((swept.others other away).trans known)
    exact ⟨old, left, StoreM.frame_eq_ok.mpr known, now, layout, buffer⟩
  · obtain ⟨old, moved, known, ran, held⟩ := swept.each other (List.mem_cons_of_mem _ within)
    obtain ⟨left, now, layout, buffer⟩ := settled other (List.mem_append_right _ within) moved held
    have whole := (reachable.trimmed other old known).whole
    have same := (FrozenFrame.sweep_spec whole ran).2
    have kept : moved.layout = old.layout := by rw [same]
    refine ⟨old, left, StoreM.frame_eq_ok.mpr known, now, layout.trans kept, fun clear separate => ?_⟩
    obtain ⟨slots, apart⟩ := follows_of_sweep (reachable.trimmed handle frame live) whole clear separate ran
    refine ⟨buffer ▸ slots, fun word ⟨place, inside, read⟩ => apart word ⟨place, ?_, buffer ▸ read⟩⟩
    rwa [FrozenFrame.places, ← layout]

/-- Three frames. The first and the last hold pointers into the one between them. -/
def knotProgram : List Operation :=
  [.capture ((Memory.blank.writeWord 0x1000 0x1010).writeWord 0x1020 0x1018)
    (fun i => 0x8000 + 0x100 * UInt64.ofNat i)
    [{ sampleFrame 0x1000 with references := [⟨0x1000, true, false⟩] },
      { sampleFrame 0x1010 with references := [] },
      { sampleFrame 0x1020 with references := [⟨0x1020, true, false⟩] }] 0x2000]

private theorem reachable_knot : Reachable (outcome {} knotProgram) :=
  reachable_of_replay (replay_outcome (by decide +kernel))

/-- The frame in the middle comes back, and the pointer of its caller comes with it. -/
theorem Reachable.resume_leaves_knot : ∃ frame resumption after left,
    (outcome {} knotProgram).frame ⟨1, 0⟩ = .ok frame ∧
    (outcome {} knotProgram).resume ⟨1, 0⟩ {} (.to 0x3000 0x4242) .blank = .ok (resumption, after) ∧
    after.frame ⟨2, 0⟩ = .ok left ∧ ∀ word, left.Refers word → ¬ frame.Owns word := by
  obtain ⟨frame, live⟩ := CallStacks.Failure.exists_of_isOk
    (show ((outcome {} knotProgram).frame ⟨1, 0⟩).isOk = true by decide +kernel)
  obtain ⟨⟨resumption, after⟩, done⟩ := CallStacks.Failure.exists_of_isOk
    (show ((outcome {} knotProgram).resume ⟨1, 0⟩ {} (.to 0x3000 0x4242) .blank).isOk = true by decide +kernel)
  obtain ⟨callees, callers, head, led, listed, _, _, _, follow⟩ := reachable_knot.resume_leaves live done
  have known : (outcome {} knotProgram).chainMembers ⟨2, 0⟩ = .ok [⟨0, 0⟩, ⟨1, 0⟩, ⟨2, 0⟩].reverse := by decide +kernel
  have top : (outcome {} knotProgram).chainHead ⟨1, 0⟩ = .ok ⟨2, 0⟩ := by decide +kernel
  obtain rfl : head = ⟨2, 0⟩ := Except.ok.inj (led.symm.trans top)
  have chain : [⟨0, 0⟩] ++ ⟨1, 0⟩ :: [⟨2, 0⟩] = callees ++ ⟨1, 0⟩ :: callers :=
    (List.reverse_inj.mp (Except.ok.inj (listed.symm.trans known))).symm
  obtain ⟨rfl, _, rfl⟩ := (List.append_cons_inj_of_notMem (by decide) (by decide)).mp chain
  obtain ⟨old, left, was, now, _, follow⟩ := follow ⟨2, 0⟩ List.mem_cons_self
  have clear : ((outcome {} knotProgram).frame ⟨1, 0⟩).toOption.all (fun frame => frame.LandsClear 0x3000) = true := by
    decide +kernel
  have separate : ((outcome {} knotProgram).frame ⟨2, 0⟩).toOption.all
      (fun frame => frame.places.Pairwise Buffer.Separate) = true := by
    decide +kernel
  rw [live] at clear
  rw [was] at separate
  exact ⟨frame, resumption, after, left, live, done, now,
    (follow (of_decide_eq_true clear) (of_decide_eq_true separate)).2⟩

/-- The callers of a frame are looked at when it comes back, its callees are not. After the caller of the frame in
the middle is dropped, that frame is the head, and it is resumed while its callee holds a pointer into it. The callee
is left with the floor that it had and with a pointer into the buffer that is gone. -/
theorem Reachable.resume_strands :
    Reachable (outcome {} (knotProgram ++ [.delete ⟨2, 0⟩])) ∧
    (outcome {} (knotProgram ++ [.delete ⟨2, 0⟩])).chainMembers ⟨1, 0⟩ = .ok [⟨1, 0⟩, ⟨0, 0⟩] ∧
    ((outcome {} (knotProgram ++ [.delete ⟨2, 0⟩])).frame ⟨1, 0⟩).map
        (fun frame => (frame.buffer.base, frame.buffer.size)) = .ok (0x8100, 16) ∧
    ((outcome {} (knotProgram ++ [.delete ⟨2, 0⟩])).resume ⟨1, 0⟩ {} (.to 0x3000 0x4242) .blank).map
      (fun answer => (answer.2.frame ⟨0, 0⟩).map
        (fun left => (left.layout.interiors, left.floor, left.buffer.read 0))) =
      .ok (.ok ([⟨0, false⟩], Generation.youngest, .ok 0x8100)) :=
  ⟨reachable_of_replay (replay_outcome (by decide +kernel)), by decide +kernel, by decide +kernel, by decide +kernel⟩

end Freezer
end CallStacks.Frozen
