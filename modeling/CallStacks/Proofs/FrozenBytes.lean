import CallStacks.Proofs.CollectorWrites
import CallStacks.Proofs.Sparing
import CallStacks.Proofs.Waking

/-! The bytes of frozen frames. They change in two ways only: a collection puts in the words that it is given, and
when a frame comes back the pointers of its callers follow it. So what the collector has last put into a slot is what
the frame finds there when it runs again. -/

namespace CallStacks.Frozen

namespace Buffer

variable {buffer after : Buffer} {offsets left : List Nat} {offset index : Nat} {shift : Shift} {word : Word}

private theorem relocate_of_still (read : buffer.read offset = .ok word) (still : shift.move? word = none) :
    buffer.relocate offset shift = .ok (buffer, false) := by
  rw [relocate_of_read read, still, Option.getD_none, overlay_of_read read, Option.isSome_none]

private theorem byte_relocateAll (separate : offsets.Pairwise Separate)
    (done : relocateAll shift offsets buffer = .ok (left, after))
    (still : ∀ offset ∈ offsets, Covered offset index → ∀ word, buffer.read offset = .ok word → shift.move? word = none) :
    after.bytes[index]? = buffer.bytes[index]? := by
  induction offsets generalizing buffer left with
  | nil =>
    cases done
    rfl
  | cons offset others ih =>
    obtain ⟨first, separate⟩ := List.pairwise_cons.mp separate
    obtain ⟨⟨middle, flag⟩, ran, done⟩ := CallStacks.Failure.bind_eq_ok.mp done
    obtain ⟨⟨remaining, last⟩, more, done⟩ := CallStacks.Failure.bind_eq_ok.mp done
    cases done
    have one := relocate_spec ran
    by_cases covered : Covered offset index
    · obtain ⟨word, read, _⟩ := one.slot
      rw [relocate_of_still read (still offset List.mem_cons_self covered word read)] at ran
      cases ran
      exact ih separate more fun other within => still other (List.mem_cons_of_mem _ within)
    · rw [← one.rest index covered]
      apply ih separate more
      intro other within inside word read
      have apart : Apart offset other := (first other within).resolve_left fun same => covered (same ▸ inside)
      rw [read_congr one.size fun index covered => one.rest index (apart.not_covered covered)] at read
      exact still other (List.mem_cons_of_mem _ within) inside word read

end Buffer

namespace FrozenFrame

variable {frame old swept : FrozenFrame} {sp word : Word} {places : List Nat} {before after : Buffer}

/-- Where a word leads once the frame has landed at a stack pointer. -/
def follow (frame : FrozenFrame) (sp word : Word) : Word :=
  if frame.Owns word then frame.destination sp + (word - frame.buffer.base) else word

private theorem move?_shiftTo (small : frame.buffer.size < UInt64.size) (sp word : Word) :
    ((frame.shiftTo sp).move? word).getD word = frame.follow sp word := by
  unfold Shift.move? follow
  simp only [covers_shiftTo small]
  split
  next =>
    rw [Option.getD_some, shiftTo, Shift.between]
    grind
  next => rfl

private theorem move?_eq_none (small : frame.buffer.size < UInt64.size) (outside : ¬ frame.Owns word) :
    (frame.shiftTo sp).move? word = none := by
  rw [Shift.move?, if_neg fun covered => outside ((covers_shiftTo small).mp covered)]

/-- The recorded pointers of a buffer have followed a frame to where it has landed, and no byte of anything else has
changed. -/
structure Followed (frame : FrozenFrame) (sp : Word) (places : List Nat) (before after : Buffer) : Prop where
  base : after.base = before.base
  size : after.size = before.size
  slots : frame.LandsClear sp ∨ places.Nodup → ∀ place ∈ places, ∃ word, before.read place = .ok word ∧
    after.read place = .ok (frame.follow sp word)
  rest : ∀ index, (∀ place ∈ places, Buffer.Covered place index → ∀ word, before.read place = .ok word →
    ¬ frame.Owns word) → after.bytes[index]? = before.bytes[index]?

theorem Followed.read_apart (followed : frame.Followed sp places before after) {other : Nat}
    (apart : ∀ place ∈ places, Buffer.Apart place other) : after.read other = before.read other := by
  apply Buffer.read_congr followed.size
  intro index covered
  apply followed.rest
  exact fun place within inside => absurd inside ((apart place within).not_covered covered)

theorem followed_of_sweep (trimmed : frame.Trimmed) (whole : old.layout.unrecorded = 0)
    (separate : old.places.Pairwise Buffer.Separate) (done : old.sweep (frame.shiftTo sp) = .ok swept) :
    frame.Followed sp old.places old.buffer swept.buffer := by
  obtain ⟨⟨left, moved⟩, _⟩ := sweep_spec whole done
  obtain ⟨base, size⟩ := Buffer.extent_of_relocateAll moved
  refine ⟨base, size, fun once => ?_, fun index still => ?_⟩
  · simp only [← move?_shiftTo trimmed.small]
    rcases once with clear | distinct
    · exact (Buffer.read_relocateAll (clears_shiftTo trimmed clear) separate moved).1
    · have apart : old.places.Pairwise Buffer.Apart :=
        (separate.and distinct).imp fun both => both.1.resolve_left both.2
      intro place within
      obtain ⟨word, read, now, _⟩ := (Buffer.relocateAll_spec apart moved).slots place within
      exact ⟨word, read, now⟩
  · apply Buffer.byte_relocateAll separate moved
    exact fun place within covered word read => move?_eq_none trimmed.small (still place within covered word read)

end FrozenFrame

namespace Freezer
open Store

variable {freezer after : Freezer} {roster : Roster} {operation : Operation} {handle gone : Handle}
  {frame old new : FrozenFrame}

/-- What an operation makes of the bytes of a frame that it leaves. -/
def Leaves (freezer after : Freezer) (handle : Handle) (old new : FrozenFrame) : Operation → Prop
  | .collect visit _ state => ∃ reports answer, visit.Delivered reports (0, state) answer freezer.store after.store ∧
      ∀ index, new.buffer.bytes[index]? ≠ old.buffer.bytes[index]? → ∃ slot ∈ reports, slot.owner = handle ∧
        Buffer.Covered slot.root.offset.toNat index ∧
        ∃ word, (slot.root.offset, word) ∈ visit.given handle state reports
  | .resume gone _ landing _ => ∃ callees callers frame head, freezer.frame gone = .ok frame ∧
      freezer.chainHead gone = .ok head ∧ freezer.chainMembers head = .ok (callees ++ gone :: callers).reverse ∧
      (handle ∈ callers → frame.Followed landing.sp old.places old.buffer new.buffer) ∧
      (handle ∉ callers → new.buffer = old.buffer)
  | _ => new.buffer = old.buffer

private theorem buffer_of_content {store final : Store} (live : store.arena.find? handle = some old)
    (still : final.arena.find? handle = some new)
    (same : (final.arena.find? handle).map FrozenFrame.content = (store.arena.find? handle).map FrozenFrame.content) :
    new.buffer = old.buffer := by
  rw [live, still] at same
  exact congrArg Prod.fst (Option.some.inj same)

private theorem ne_of_gone {store : Store} (absent : store.arena.find? gone = none)
    (still : store.arena.find? handle = some new) : handle ≠ gone := by
  rintro rfl
  rw [absent] at still
  cases still

private theorem collect_leaves {σ : Type} {visit : Visitor σ} {condemned : Generation} {state : σ} {answer : Nat × σ}
    (whole : old.layout.unrecorded = 0) (live : freezer.store.arena.find? handle = some old)
    (still : after.store.arena.find? handle = some new)
    (ran : visit.chains condemned state freezer.store = .ok answer after.store) :
    freezer.Leaves after handle old new (.collect visit condemned state) := by
  obtain ⟨reports, delivered⟩ := Visitor.chains_delivers ran
  refine ⟨reports, answer, delivered, fun index changed => ?_⟩
  obtain ⟨now, filled, held⟩ := delivered.filled handle old live
  obtain rfl : new = now := Option.some.inj (still.symm.trans held)
  by_contra unreported
  apply changed
  apply FrozenFrame.byte_fill whole filled
  intro ⟨offset, word⟩ within covered
  obtain ⟨slot, shown, owner, rfl⟩ := Visitor.reported_of_given within
  exact unreported ⟨slot, shown, owner, covered, word, within⟩

private theorem thawed_leaves {value : ResumeValue} {landing : Landing} {memory : Memory} {removed : FrozenFrame}
    (reachable : Reachable freezer) (valid : Valid freezer.store roster) (separate : old.places.Pairwise Buffer.Separate)
    (live : freezer.store.arena.find? handle = some old) (still : after.store.arena.find? handle = some new)
    (thawed : Thawed freezer.store roster gone landing.sp removed after.store) :
    freezer.Leaves after handle old new (.resume gone value landing memory) := by
  obtain ⟨callees, callers, frame, middle, member, known, swept, _, absent, content⟩ := thawed.moved
  obtain ⟨_, head, _, led⟩ := valid.chainHead_of_member member (show gone ∈ _ by simp)
  have different := ne_of_gone absent still
  have same := content handle different
  refine ⟨callees, callers, frame, head, StoreM.frame_eq_ok.mpr known, led,
    chainMembers_of_chainHead valid.toRepresents member led, fun caller => ?_, fun other => ?_⟩
  · obtain ⟨began, moved, held, ran, now⟩ := swept.each handle (List.mem_cons_of_mem _ caller)
    obtain rfl : old = began := Option.some.inj (live.symm.trans held)
    rw [buffer_of_content now still same]
    exact FrozenFrame.followed_of_sweep (reachable.trimmed gone frame known) (reachable.trimmed handle old live).whole
      separate ran
  · have left := swept.others handle fun within => (List.mem_cons.mp within).elim different other
    exact buffer_of_content (left.trans live) still same

theorem settled_of_perform (reachable : Reachable freezer) (done : freezer.perform operation = .ok after)
    (live : freezer.store.arena.find? handle = some old) (still : after.store.arena.find? handle = some new) :
    new.settled = old.settled := by
  obtain ⟨roster, _, valid⟩ := reachable.history
  rcases perform_endures valid done handle new still with ⟨began, known, endures⟩ | ⟨none, _⟩
  · obtain rfl : old = began := Option.some.inj (live.symm.trans known)
    exact endures.settled
  · rw [live] at none
    cases none

theorem perform_leaves (reachable : Reachable freezer) (done : freezer.perform operation = .ok after)
    (live : freezer.store.arena.find? handle = some old) (still : after.store.arena.find? handle = some new)
    (separate : old.places.Pairwise Buffer.Separate) : freezer.Leaves after handle old new operation := by
  obtain ⟨roster, _, valid⟩ := reachable.history
  obtain ⟨callees, callers, member, _⟩ := valid.place live
  have within : handle ∈ callees ++ handle :: callers := by simp
  have spared (spares : operation.Spares (callees ++ handle :: callers)) : new.buffer = old.buffer :=
    buffer_of_content live still (perform_spared valid member spares done handle within)
  obtain ⟨ran, _⟩ := perform_ran done
  cases operation with
  | delete gone =>
    obtain ⟨_, ran⟩ := ran
    obtain ⟨_, _, _, _, detached⟩ := detached_of_detach valid ran
    exact buffer_of_content live still (detached.content handle (ne_of_gone detached.gone still))
  | deleteChain head =>
    obtain ⟨members, listed, ran⟩ := ran
    obtain ⟨before, above, _, turned, valid'⟩ := detachAll_of_chainMembers valid listed ran
    have outside : handle ∉ members.reverse := by
      have left := (valid'.live handle).mpr (by simp [still])
      rw [Roster.members_without, List.mem_filter, decide_eq_true_eq] at left
      exact turned ▸ left.2
    have alone : Spared [handle] freezer.store after.store := by
      refine StoreM.Respects.forM Spared.refl Spared.trans _ (fun gone leaves => ?_) _ _ _ ran
      intro store answer final discarded
      obtain ⟨_, detached⟩ := EStateM.discard_eq_ok.mp discarded
      apply StoreM.detach_spared _ _ _ _ detached
      exact fun same => outside (List.mem_singleton.mp same ▸ leaves)
    exact buffer_of_content live still (alone handle List.mem_cons_self)
  | resume gone value landing memory =>
    obtain ⟨removed, ran⟩ := ran
    exact thawed_leaves reachable valid separate live still (prepare_spec valid ran)
  | collect visit condemned state =>
    obtain ⟨answer, ran⟩ := ran
    exact collect_leaves (reachable.trimmed handle old live).whole live still ran
  | capture memory place frames limit => exact spared trivial
  | register head => exact spared trivial
  | unregister head => exact spared trivial
  | age condemned oldest => exact spared trivial
  | rejuvenate heap condemned oldest => exact spared trivial
  | enterQuietScope => exact spared trivial
  | leaveQuietScope => exact spared trivial

end Freezer
end CallStacks.Frozen
