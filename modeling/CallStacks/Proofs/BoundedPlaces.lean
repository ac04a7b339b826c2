import CallStacks.Proofs.CaptureBounds
import CallStacks.Proofs.Collections
import CallStacks.Proofs.Readiness

/-! Frames whose places lie in their copies. No operation of the collector can fail on them, and running one
of them again writes to the stack space it has asked for and to nothing else. -/

namespace CallStacks.Frozen

namespace FrozenFrame

variable {frame old new swept : FrozenFrame} {memory after : Memory} {addr : Word}

theorem Trimmed.ready (trimmed : frame.Trimmed) : frame.Ready := by
  refine ⟨trimmed.whole, fun place within => ?_⟩
  obtain ⟨slot, told, rfl⟩ := List.mem_map.mp within
  exact trimmed.interiors slot told

theorem Trimmed.small (trimmed : frame.Trimmed) : frame.buffer.size < UInt64.size := by
  rw [← trimmed.recorded]
  exact Nat.lt_trans frame.layout.recorded.toNat_lt (by decide)

theorem Contained.endures (contained : old.Contained) (endures : old.Endures new) : new.Contained :=
  contained.of_settled endures.layout endures.size

theorem Contained.roots (contained : frame.Contained) :
    ∀ root ∈ frame.layout.roots, root.offset.toNat + 8 ≤ frame.buffer.size := by
  intro root within
  rcases List.mem_append.mp within with object | interior
  · obtain ⟨offset, told, rfl⟩ := List.mem_map.mp object
    exact contained.objects offset told
  · obtain ⟨slot, told, rfl⟩ := List.mem_map.mp interior
    exact contained.interiors slot told

private theorem endures_of_sweep {shift : Shift} (done : frame.sweep shift = .ok swept) : frame.Endures swept := by
  apply CallStacks.Failure.foldlM_invariant (frame.Endures ·) done (.refl frame)
  exact fun slot _ seen next endures moved => endures.trans (endures_of_relocate moved)

/-- A frame that is put onto a stack writes its copy and the return address, and nothing else. -/
theorem byte_spliced {value : ResumeValue} {landing finish : Landing} {reloads : List Reload}
    (done : frame.splice value landing memory = .ok (reloads, finish, after))
    (outside : frame.buffer.size ≤ (addr - frame.destination landing.sp).toNat)
    (apart : 8 ≤ (addr - (landing.sp + frame.layout.returnOffset.toUInt64)).toNat) :
    after.byte addr = memory.byte addr := by
  unfold splice at done
  obtain ⟨slot, added, done⟩ := CallStacks.Failure.bind_eq_ok.mp done
  obtain rfl : slot = landing.sp + frame.layout.returnOffset.toUInt64 := by
    unfold Word.add? at added
    split at added
    · cases added
      rfl
    · cases added
  dsimp only at done
  split at done
  next =>
    cases done
    rw [Memory.writeWord, Memory.byte_write_outside, Memory.byte_write_outside _ _ _ outside]
    rwa [List.size_toArray, Word.length_toBytes]
  next => cases done

theorem Contained.splice_outside (contained : frame.Contained) {value : ResumeValue} {landing finish : Landing}
    {reloads : List Reload} (done : frame.splice value landing memory = .ok (reloads, finish, after))
    (outside : frame.layout.requirement.toNat ≤ (addr - landing.sp).toNat) : after.byte addr = memory.byte addr := by
  have start : frame.destination landing.sp = landing.sp := by
    rw [destination, contained.whole]
    exact UInt64.add_zero _
  rw [contained.requirement] at outside
  have fits := contained.returnOffset
  apply byte_spliced done
  · rwa [start]
  · rw [UInt64.toNat_sub] at outside
    rw [UInt64.toNat_sub, UInt64.toNat_add, UInt32.toNat_toUInt64]
    have bound := landing.sp.toNat_lt
    have high := addr.toNat_lt
    omega

end FrozenFrame

namespace Store

variable {store final : Store} {roster : Roster} {handle : Handle} {chain : List Handle}

theorem Thawed.removed_settled {frame removed : FrozenFrame} {sp : Word}
    (thawed : Thawed store roster handle sp removed final) (live : store.arena.find? handle = some frame) :
    removed.layout = frame.layout ∧ removed.buffer.size = frame.buffer.size := by
  obtain ⟨_, _, started, middle, _, known, swept, content, _⟩ := thawed.moved
  obtain rfl : frame = started := Option.some.inj (live.symm.trans known)
  obtain ⟨frame', sweep, held, moved, now⟩ := swept.each handle List.mem_cons_self
  obtain rfl : frame = frame' := Option.some.inj (live.symm.trans held)
  have endures := FrozenFrame.endures_of_sweep moved
  rw [now, Option.map_some, Option.some.injEq] at content
  exact ⟨(congrArg (·.2.1) content).symm.trans endures.layout, (congrArg (·.1.size) content).symm.trans endures.size⟩

/-- Every place that a frame's layout names lies in its copy. -/
def Contained (store : Store) : Prop :=
  ∀ handle frame, store.arena.find? handle = some frame → frame.Contained

theorem Contained.endures (contained : store.Contained) (endures : store.Endures final) : final.Contained := by
  intro handle frame live
  obtain ⟨old, known, lasts⟩ := endures handle frame live
  exact (contained handle old known).endures lasts

def Readable (store : Store) (handle : Handle) : Prop :=
  ∃ frame, store.arena.find? handle = some frame ∧ frame.layout.unrecorded = 0 ∧
    ∀ root ∈ frame.layout.roots, root.offset.toNat + 8 ≤ frame.buffer.size

theorem Contained.readable (contained : store.Contained) (live : (store.arena.find? handle).isSome) :
    store.Readable handle := by
  obtain ⟨frame, live⟩ := Option.isSome_iff_exists.mp live
  exact ⟨frame, live, (contained handle frame live).whole, (contained handle frame live).roots⟩

end Store

namespace Visitor
open Store

variable {σ : Type} (visit : Visitor σ) {store final : Store} {roster : Roster} {handle head : Handle}
  {condemned : Generation} {before : List Handle}

private theorem slot_run {layout : Layout} {root : Root} {buffer : Buffer} (owner : Handle) (state : σ)
    (whole : layout.unrecorded = 0) (fits : root.offset.toNat + 8 ≤ buffer.size) :
    ∃ answer, visit.slot owner layout root buffer state = .ok answer := by
  obtain ⟨value, read⟩ := Buffer.read_of_inside fits
  unfold slot
  simp only [Layout.bufferOffset_of_whole whole, read, bind, Except.bind]
  split
  next word _ _ =>
    obtain ⟨after, wrote⟩ : ∃ after, buffer.write root.offset.toNat word = .ok after :=
      ⟨_, (Buffer.writeBytes_eq_ok_iff _ _ _ _).mpr ⟨by simpa using fits, rfl⟩⟩
    exact ⟨_, by rw [wrote]; rfl⟩
  next => exact ⟨_, rfl⟩

private theorem run_run {layout : Layout} {roots : List Root} {buffer : Buffer} (owner : Handle) (state : σ)
    (whole : layout.unrecorded = 0) (fits : ∀ root ∈ roots, root.offset.toNat + 8 ≤ buffer.size) :
    ∃ answer, visit.run owner layout roots buffer state = .ok answer := by
  induction roots generalizing buffer state with
  | nil => exact ⟨_, rfl⟩
  | cons root rest ih =>
    obtain ⟨⟨written, next⟩, first⟩ := visit.slot_run owner state whole (fits root List.mem_cons_self)
    have still : ∀ other ∈ rest, other.offset.toNat + 8 ≤ written.size := by
      rw [size_of_slot first]
      exact fun other within => fits other (List.mem_cons_of_mem _ within)
    obtain ⟨⟨after, count, last⟩, others⟩ := ih next still
    refine ⟨(after, count + 1, last), ?_⟩
    unfold run
    simp only [first, others, bind, Except.bind, pure, Except.pure]

private theorem frame_run (condemned : Generation) (seen : Nat × σ) (readable : store.Readable handle) :
    ∃ answer final, visit.frame condemned seen handle store = .ok answer final := by
  obtain ⟨frame, live, whole, fits⟩ := readable
  unfold Visitor.frame
  rw [EStateM.bind_of_ok (StoreM.askFrame_of_live live)]
  split
  · exact ⟨_, _, rfl⟩
  · obtain ⟨answer, ran⟩ := visit.run_run handle seen.2 whole fits
    rw [EStateM.bind_of_ok (StoreM.ask_of_ok (CallStacks.Failure.ofRefusal_eq_ok.mpr ran))]
    exact ⟨_, _, rfl⟩

private theorem readable_of_frame {other : Handle} {seen answer : Nat × σ} (readable : store.Readable other)
    (done : visit.frame condemned seen handle store = .ok answer final) : final.Readable other := by
  obtain ⟨old, known, whole, fits⟩ := readable
  obtain ⟨frame, live, _⟩ := (frame_spec done).kept.toAgrees.forward known
  obtain ⟨old', known', endures⟩ := visit.frame_enduring condemned seen handle _ _ _ done other frame live
  obtain rfl : old = old' := Option.some.inj (known.symm.trans known')
  exact ⟨frame, live, endures.layout ▸ whole, by rw [endures.layout, endures.size]; exact fits⟩

private theorem members_run {handles : List Handle} (condemned : Generation) (seen : Nat × σ)
    (readable : ∀ handle ∈ handles, store.Readable handle) :
    ∃ answer final, handles.foldlM (visit.frame condemned) seen store = .ok answer final := by
  induction handles generalizing seen store with
  | nil => exact ⟨seen, store, rfl⟩
  | cons first rest ih =>
    obtain ⟨next, middle, ran⟩ := visit.frame_run condemned seen (readable first List.mem_cons_self)
    obtain ⟨answer, final, others⟩ := ih next fun handle within =>
      visit.readable_of_frame (readable handle (List.mem_cons_of_mem _ within)) ran
    exact ⟨answer, final, by rw [List.foldlM_cons, EStateM.bind_of_ok ran, others]⟩

theorem chain_run (valid : Valid store roster) (member : before ++ [head] ∈ roster.chains) (condemned : Generation)
    (seen : Nat × σ) (readable : ∀ handle ∈ before ++ [head], store.Readable handle) :
    ∃ answer final, visit.chain condemned seen head store = .ok answer final := by
  obtain ⟨frame, live⟩ := Option.isSome_iff_exists.mp (valid.live_of_mem member (show head ∈ _ by simp))
  unfold Visitor.chain
  rw [EStateM.bind_of_ok (StoreM.askFrame_of_live live)]
  split
  · exact ⟨_, _, rfl⟩
  · have listed := chainMembers_eq (valid.linked _ member) (valid.chain_distinct member)
    rw [EStateM.bind_of_ok (StoreM.ask_of_ok listed)]
    exact visit.members_run condemned seen fun handle within => readable handle (by simpa [or_comm] using within)

/-- A collection of frames whose places lie in their copies cannot fail. -/
theorem chains_run (valid : Valid store roster) (contained : store.Contained) (condemned : Generation) (state : σ) :
    ∃ answer final, visit.chains condemned state store = .ok answer final := by
  cases outcome : visit.chains condemned state store with
  | ok answer final => exact ⟨answer, final, rfl⟩
  | error failure final =>
    exfalso
    obtain ⟨cause, failed, _⟩ := StoreM.insisting_eq_error.mp outcome
    rw [EStateM.bind_of_ok (StoreM.ask_of_ok valid.heads_eq)] at failed
    obtain ⟨head, within, seen, middle, ⟨valid, contained⟩, failed⟩ := StoreM.foldlM_failure
      (fun store => Valid store roster ∧ store.Contained) failed ⟨valid, contained⟩
      fun head within seen answer store final ⟨valid, contained⟩ done => by
        obtain ⟨before, member⟩ := Represents.mem_heads_iff.mp within
        exact ⟨valid.repainted (chain_spec valid (List.mem_append_left _ member) done).kept,
          contained.endures (visit.chain_enduring condemned seen head _ _ _ done)⟩
    obtain ⟨before, member⟩ := Represents.mem_heads_iff.mp within
    have member := List.mem_append_left roster.hidden member
    obtain ⟨answer, final, ran⟩ := visit.chain_run valid member condemned seen fun handle inside =>
      contained.readable (valid.live_of_mem member inside)
    rw [ran] at failed
    cases failed

end Visitor

namespace StoreM
open Store

variable {store final : Store} {roster : Roster} {condemned oldest : Generation} {failure : Failure}

private theorem ageFrame_failure {handle : Handle} (live : (store.arena.find? handle).isSome)
    (failed : ageFrame oldest handle store = .error failure final) : failure = .stopped .overflow := by
  obtain ⟨frame, live⟩ := Option.isSome_iff_exists.mp live
  unfold ageFrame tryFrame at failed
  rcases EStateM.bind_eq_error.mp failed with failed | ⟨_, _, _, failed⟩
  · obtain ⟨failed, _⟩ := ask_eq_error.mp failed
    simp only [frame_eq_ok.mpr live, bind, Except.bind, Generation.aged] at failed
    split at failed
    next stopped =>
      split at stopped
      · cases stopped
      split at stopped
      · cases stopped
        cases failed
        rfl
      · cases stopped
    next => cases failed
  · exact (EStateM.modify_eq_error.mp failed).elim

/-- Aging fails only where a floor cannot be counted on. -/
theorem age_failure (valid : Valid store roster) (failed : age condemned oldest store = .error failure final) :
    failure = .stopped .overflow := by
  obtain ⟨cause, stopped, rfl⟩ := insisting_eq_error.mp failed
  rw [EStateM.bind_of_ok (ask_of_ok valid.heads_eq)] at stopped
  obtain ⟨head, within, seen, middle, valid, failed⟩ := foldlM_failure (Valid · roster) stopped valid
    fun head within seen answer store final valid done => by
      obtain ⟨before, member⟩ := Represents.mem_heads_iff.mp within
      exact ageChain_valid valid (List.mem_append_left _ member) done
  obtain ⟨before, member⟩ := Represents.mem_heads_iff.mp within
  have member := List.mem_append_left roster.hidden member
  obtain ⟨frame, live⟩ := Option.isSome_iff_exists.mp (valid.live_of_mem member (show head ∈ _ by simp))
  unfold ageChain at failed
  rw [EStateM.bind_of_ok (askFrame_of_live live)] at failed
  split at failed
  · exact (EStateM.pure_eq_error.mp failed).elim
  have listed := chainMembers_eq (valid.linked _ member) (valid.chain_distinct member)
  rw [EStateM.bind_of_ok (ask_of_ok listed)] at failed
  rcases EStateM.bind_eq_error.mp failed with failed | ⟨_, _, _, failed⟩
  · obtain ⟨other, inside, reached, agrees, failed⟩ := forM_failure (Undisturbed FrozenFrame.offFloor middle) failed
      (.refl middle) fun other _ store final agrees done =>
        agrees.trans (ageFrame_undisturbed oldest other _ _ _ done)
    have inner : other ∈ before ++ [head] := by simpa [or_comm] using inside
    rw [ageFrame_failure ((agrees.live_iff other).mpr (valid.live_of_mem member inner)) failed]
    rfl
  · exact (EStateM.pure_eq_error.mp failed).elim

end StoreM

namespace Rejuvenation
open Store

variable {store final : Store} {roster : Roster} {heap : Word → Generation} {condemned oldest : Generation}
  {failure : Failure}

private theorem youngest_failure {layout : Layout} {buffer : Buffer} {offsets : List UInt32} {floor : Generation}
    (whole : layout.unrecorded = 0) (fits : ∀ offset ∈ offsets, offset.toNat + 8 ≤ buffer.size)
    (failed : youngest heap oldest layout buffer offsets floor = .error failure) :
    failure = .stopped .invertedBounds := by
  induction offsets generalizing floor with
  | nil => cases failed
  | cons offset rest ih =>
    have inner : ∀ other ∈ rest, other.toNat + 8 ≤ buffer.size :=
      fun other within => fits other (List.mem_cons_of_mem _ within)
    obtain ⟨value, read⟩ := Buffer.read_of_inside (fits offset List.mem_cons_self)
    unfold youngest at failed
    split at failed
    · cases failed
    simp only [Layout.bufferOffset_of_whole whole, read, bind, Except.bind, CallStacks.Failure.ofRefusal,
      Generation.bounded] at failed
    split at failed
    · exact ih inner failed
    split at failed
    next stopped =>
      split at stopped
      · cases stopped
        cases failed
        rfl
      · cases stopped
    split at failed
    next broken =>
      cases failed
      exact ih inner broken
    next => cases failed

private theorem frame_failure {seen : Generation × Rejuvenation} {handle : Handle} (contained : store.Contained)
    (live : (store.arena.find? handle).isSome)
    (failed : Rejuvenation.frame heap oldest seen handle store = .error failure final) :
    failure = .stopped .invertedBounds := by
  obtain ⟨frame, live⟩ := Option.isSome_iff_exists.mp live
  have frameContained := contained handle frame live
  obtain ⟨chainFloor, done⟩ := seen
  unfold Rejuvenation.frame at failed
  dsimp only at failed
  rw [EStateM.bind_of_ok (StoreM.askFrame_of_live live)] at failed
  split at failed
  · exact (EStateM.pure_eq_error.mp failed).elim
  rcases EStateM.bind_eq_error.mp failed with failed | ⟨_, _, _, failed⟩
  · refine youngest_failure frameContained.whole (fun offset within => ?_) (StoreM.ask_eq_error.mp failed).1
    obtain ⟨root, told, rfl⟩ := List.mem_map.mp within
    exact frameContained.roots root told
  · split at failed
    · rcases EStateM.bind_eq_error.mp failed with failed | ⟨_, _, _, failed⟩
      · exact (EStateM.modify_eq_error.mp failed).elim
      · exact (EStateM.pure_eq_error.mp failed).elim
    · exact (EStateM.pure_eq_error.mp failed).elim

/-- A rejuvenation of frames whose places lie in their copies fails only if it is told of generations that do
not exist. -/
theorem rejuvenate_failure (valid : Valid store roster) (contained : store.Contained)
    (failed : StoreM.rejuvenate heap condemned oldest store = .error failure final) :
    failure = .stopped .invertedBounds := by
  obtain ⟨cause, stopped, rfl⟩ := StoreM.insisting_eq_error.mp failed
  rw [EStateM.bind_of_ok (StoreM.ask_of_ok valid.heads_eq)] at stopped
  obtain ⟨head, within, seen, middle, ⟨valid, contained⟩, failed⟩ := StoreM.foldlM_failure
    (fun store => Valid store roster ∧ store.Contained) stopped ⟨valid, contained⟩
    fun head within seen answer store final ⟨valid, contained⟩ done => by
      obtain ⟨before, member⟩ := Represents.mem_heads_iff.mp within
      exact ⟨chain_valid valid (List.mem_append_left _ member) done,
        contained.endures (chain_enduring heap condemned oldest seen head _ _ _ done)⟩
  obtain ⟨before, member⟩ := Represents.mem_heads_iff.mp within
  have member := List.mem_append_left roster.hidden member
  obtain ⟨frame, live⟩ := Option.isSome_iff_exists.mp (valid.live_of_mem member (show head ∈ _ by simp))
  unfold Rejuvenation.chain at failed
  rw [EStateM.bind_of_ok (StoreM.askFrame_of_live live)] at failed
  dsimp only at failed
  split at failed
  · exact (EStateM.pure_eq_error.mp failed).elim
  have listed := chainMembers_eq (valid.linked _ member) (valid.chain_distinct member)
  rw [EStateM.bind_of_ok (StoreM.ask_of_ok listed)] at failed
  rcases EStateM.bind_eq_error.mp failed with failed | ⟨_, reached, lowered, failed⟩
  · obtain ⟨other, inside, seen, reached, ⟨kept, contained⟩, failed⟩ := StoreM.foldlM_failure
      (fun store => Undisturbed FrozenFrame.offFloor middle store ∧ store.Contained) failed
      ⟨.refl middle, contained⟩ fun other _ seen answer store final ⟨kept, contained⟩ done =>
        ⟨kept.trans (frame_undisturbed heap oldest seen other _ _ _ done),
          contained.endures (frame_enduring heap oldest seen other _ _ _ done)⟩
    have inner : other ∈ before ++ [head] := by simpa [or_comm] using inside
    rw [frame_failure contained ((kept.live_iff other).mpr (valid.live_of_mem member inner)) failed]
    rfl
  · -- the head is still there to take the lowest floor
    have kept := StoreM.Respects.foldlM Undisturbed.refl Undisturbed.trans _ _
      (fun member _ seen => frame_undisturbed heap oldest seen member) _ _ _ lowered
    obtain ⟨outer, top, _⟩ := kept.toAgrees.forward live
    rw [EStateM.bind_of_ok (StoreM.changeFrame_of_live top _)] at failed
    exact (EStateM.pure_eq_error.mp failed).elim

end Rejuvenation
end CallStacks.Frozen
