import CallStacks.Proofs.FrozenBytes
import CallStacks.Proofs.ResumedBytes

/-! What a frame finds when it runs again. A word that the collector has put into one of its slots has stayed there
through all that has happened since, and has come onto the stack with the rest of the frame. -/

namespace CallStacks.Frozen

/-- If the operation is a collection, it puts no word over the one at this offset of the frame. -/
def Operation.Clears (operation : Operation) (store final : Store) (handle : Handle) (offset : UInt32) : Prop :=
  match operation with
  | .collect visit _ state => ∃ reports answer, visit.Delivered reports (0, state) answer store final ∧
      ∀ write ∈ visit.given handle state reports, Buffer.Apart write.1.toNat offset.toNat
  | _ => True

namespace Freezer
open Store

variable {freezer after : Freezer} {handle : Handle} {frame : FrozenFrame} {offset : UInt32} {word : Word}

theorem Reachable.collected {σ : Type} {visit : Visitor σ} {condemned : Generation} {state : σ} {answer : Nat × σ}
    (reachable : Reachable freezer) (done : freezer.collect visit condemned state = .ok (answer, after)) :
    Reachable after :=
  .step (.collect visit condemned state) reachable (CallStacks.Failure.map_eq_ok.mpr ⟨_, done, rfl⟩)

private theorem collect_delivers {σ : Type} {visit : Visitor σ} {condemned : Generation} {state : σ} {answer : Nat × σ}
    (done : freezer.collect visit condemned state = .ok (answer, after)) :
    ∃ reports, visit.Delivered reports (0, state) answer freezer.store after.store := by
  obtain ⟨_, ran⟩ := collecting_eq_ok.mp done
  obtain ⟨store, stored, rfl⟩ := run_eq_ok.mp ran
  exact Visitor.chains_delivers stored

/-- A collector has put the word into a frame, and no collection has put anything over it since. -/
inductive Put (handle : Handle) (offset : UInt32) (word : Word) : Freezer → Prop
  | given {σ : Type} {freezer after : Freezer} {visit : Visitor σ} {condemned : Generation} {state : σ}
      {answer : Nat × σ} {reports : List RootSlot} {before later : List (UInt32 × Word)}
      (past : Reachable freezer) (done : freezer.collect visit condemned state = .ok (answer, after))
      (delivered : visit.Delivered reports (0, state) answer freezer.store after.store)
      (last : visit.given handle state reports = before ++ (offset, word) :: later)
      (apart : ∀ write ∈ later, Buffer.Apart write.1.toNat offset.toNat) : Put handle offset word after
  | kept {freezer after : Freezer} (operation : Operation) (past : Put handle offset word freezer)
      (done : freezer.perform operation = .ok after) (live : (after.store.arena.find? handle).isSome)
      (clears : operation.Clears freezer.store after.store handle offset) : Put handle offset word after

theorem Put.reachable (put : Put handle offset word freezer) : Reachable freezer := by
  induction put with
  | given past done _ _ _ => exact past.collected done
  | kept operation _ done _ _ ih => exact .step operation ih done

private theorem read_of_leaves {operation : Operation} {old new : FrozenFrame} (whole : old.layout.unrecorded = 0)
    (live : freezer.store.arena.find? handle = some old) (still : after.store.arena.find? handle = some new)
    (leaves : freezer.Leaves after handle old new operation)
    (clears : operation.Clears freezer.store after.store handle offset)
    (apart : ∀ place ∈ old.places, Buffer.Apart place offset.toNat) :
    new.buffer.read offset.toNat = old.buffer.read offset.toNat := by
  have same (kept : new.buffer = old.buffer) : new.buffer.read offset.toNat = old.buffer.read offset.toNat := by
    rw [kept]
  cases operation with
  | collect visit condemned state =>
    obtain ⟨reports, answer, delivered, elsewhere⟩ := clears
    obtain ⟨now, filled, held⟩ := delivered.filled handle old live
    obtain rfl : new = now := Option.some.inj (still.symm.trans held)
    exact FrozenFrame.read_fill_apart whole filled elsewhere
  | resume gone value landing memory =>
    obtain ⟨callees, callers, frame, head, _, _, _, follows, others⟩ := leaves
    by_cases caller : handle ∈ callers
    · exact (follows caller).read_apart apart
    · exact same (others caller)
  | capture memory place frames limit => exact same leaves
  | register head => exact same leaves
  | unregister head => exact same leaves
  | delete gone => exact same leaves
  | deleteChain head => exact same leaves
  | age condemned oldest => exact same leaves
  | rejuvenate heap condemned oldest => exact same leaves
  | enterQuietScope => exact same leaves
  | leaveQuietScope => exact same leaves

theorem Put.live (put : Put handle offset word freezer) : ∃ frame, freezer.store.arena.find? handle = some frame := by
  cases put with
  | given past done delivered last apart =>
    obtain ⟨slot, shown, rfl, _⟩ := Visitor.reported_of_given (last ▸ List.mem_append_right _ List.mem_cons_self)
    obtain ⟨frame, live, _⟩ := delivered.recorded slot shown
    obtain ⟨now, _, still⟩ := delivered.filled _ frame live
    exact ⟨now, still⟩
  | kept operation past done live clears => exact Option.isSome_iff_exists.mp live

/-- The word is still in its slot, if that meets no pointer that could have moved. -/
theorem Put.read (put : Put handle offset word freezer) (live : freezer.store.arena.find? handle = some frame)
    (separate : frame.places.Pairwise Buffer.Separate) (apart : ∀ place ∈ frame.places, Buffer.Apart place offset.toNat) :
    frame.buffer.read offset.toNat = .ok word := by
  induction put generalizing frame with
  | @given σ freezer after visit condemned state answer reports before later past done delivered last free =>
    obtain ⟨slot, shown, rfl, _⟩ := Visitor.reported_of_given (last ▸ List.mem_append_right _ List.mem_cons_self)
    obtain ⟨old, known, _⟩ := delivered.recorded slot shown
    obtain ⟨now, filled, still⟩ := delivered.filled _ old known
    obtain rfl : frame = now := Option.some.inj (live.symm.trans still)
    rw [last] at filled
    exact FrozenFrame.read_fill (past.trimmed _ old known).whole filled free
  | @kept freezer after operation past done _ clears ih =>
    have reachable := past.reachable
    obtain ⟨old, known⟩ := past.live
    have layout : frame.layout = old.layout := congrArg (·.2.2.1) (settled_of_perform reachable done known live)
    have places : frame.places = old.places := by rw [FrozenFrame.places, layout, FrozenFrame.places]
    rw [places] at separate apart
    have leaves := perform_leaves reachable done known live separate
    rw [read_of_leaves (reachable.trimmed handle old known).whole known live leaves clears apart]
    exact ih known separate apart

/-- A resumed frame comes onto the stack with its own pointers moved, and the return address is laid over it. -/
theorem resume_lands {value : ResumeValue} {landing : Landing} {memory : Memory} {resumption : Resumption}
    (reachable : Reachable freezer) (live : freezer.store.arena.find? handle = some frame)
    (separate : frame.places.Pairwise Buffer.Separate)
    (done : freezer.resume handle value landing memory = .ok (resumption, after)) :
    (∀ addr, frame.buffer.size ≤ (addr - frame.destination landing.sp).toNat →
      8 ≤ (addr - (landing.sp + frame.layout.returnOffset.toUInt64)).toNat →
      resumption.memory.byte addr = memory.byte addr) ∧
    ∃ moved, frame.Followed landing.sp frame.places frame.buffer moved ∧
      Landed moved landing.sp landing.returnAddress frame.layout.returnOffset.toNat resumption.memory := by
  obtain ⟨roster, _, valid⟩ := reachable.history
  obtain ⟨removed, thawed, finish, spliced⟩ := resume_spec valid done
  obtain ⟨layout, size⟩ := thawed.removed_settled live
  obtain ⟨_, _, started, middle, _, known, swept, content, _⟩ := thawed.moved
  obtain rfl : frame = started := Option.some.inj (live.symm.trans known)
  obtain ⟨began, moved, held, ran, now⟩ := swept.each handle List.mem_cons_self
  obtain rfl : frame = began := Option.some.inj (live.symm.trans held)
  have trimmed := reachable.trimmed handle frame live
  have buffer : removed.buffer = moved.buffer := by
    rw [now, Option.map_some, Option.some.injEq] at content
    exact (congrArg Prod.fst content).symm
  refine ⟨fun addr outside apart => ?_, moved.buffer,
    FrozenFrame.followed_of_sweep trimmed trimmed.whole separate ran, ?_⟩
  · apply FrozenFrame.byte_spliced spliced
    · rwa [size, FrozenFrame.destination, layout]
    · rwa [layout]
  · have small : removed.buffer.size ≤ UInt32.size := by
      rw [size, ← trimmed.recorded]
      exact Nat.le_of_lt frame.layout.recorded.toNat_lt
    have landed := FrozenFrame.splice_spec (layout ▸ trimmed.whole) small spliced
    rwa [layout, buffer] at landed

/-- What changes the bytes of frozen frames and what does not. Nothing that was settled when a frame was frozen ever
changes. Of its bytes a collection changes those for which it is given words, and the return of a frame moves the
pointers that its callers have into its buffer. On the stack it writes its copy, with its own pointers moved, and the
return address. So a word that the collector has put in last is what the frame finds, if it is neither a pointer
of the frame nor its return address. -/
theorem Reachable.frozen_bytes (reachable : Reachable freezer)
    (separate : ∀ handle frame, freezer.frame handle = .ok frame → frame.places.Pairwise Buffer.Separate) :
    (∀ operation after, freezer.perform operation = .ok after → ∀ handle old new, freezer.frame handle = .ok old →
      after.frame handle = .ok new → new.settled = old.settled ∧ freezer.Leaves after handle old new operation) ∧
    ∀ handle frame value landing memory resumption after, freezer.frame handle = .ok frame →
      freezer.resume handle value landing memory = .ok (resumption, after) →
      (∀ addr, frame.buffer.size ≤ (addr - frame.destination landing.sp).toNat →
        8 ≤ (addr - (landing.sp + frame.layout.returnOffset.toUInt64)).toNat →
        resumption.memory.byte addr = memory.byte addr) ∧
      (∃ moved, frame.Followed landing.sp frame.places frame.buffer moved ∧
        Landed moved landing.sp landing.returnAddress frame.layout.returnOffset.toNat resumption.memory) ∧
      ∀ offset word, Put handle offset word freezer → (∀ place ∈ frame.places, Buffer.Apart place offset.toNat) →
        Buffer.Apart offset.toNat frame.layout.returnOffset.toNat →
        resumption.memory.word (landing.sp + UInt64.ofNat offset.toNat) = word := by
  refine ⟨fun operation after done handle old new known still => ?_,
    fun handle frame value landing memory resumption after known done => ?_⟩
  · have live := StoreM.frame_eq_ok.mp known
    have now := StoreM.frame_eq_ok.mp still
    exact ⟨settled_of_perform reachable done live now,
      perform_leaves reachable done live now (separate handle old known)⟩
  · have live := StoreM.frame_eq_ok.mp known
    have alone := separate handle frame known
    obtain ⟨elsewhere, moved, followed, landed⟩ := resume_lands reachable live alone done
    refine ⟨elsewhere, ⟨moved, followed, landed⟩, fun offset word put apart clear => ?_⟩
    apply landed.word clear
    rw [followed.read_apart apart]
    exact put.read live alone apart

def updating (word : Word) : Visitor (List RootSlot) := fun slot => do
  modify (· ++ [slot])
  return if slot.root.kind = .precise then some word else none

private theorem told_updating (noted reports : List RootSlot) :
    (updating word).told noted reports = noted ++ reports := by
  induction reports generalizing noted with
  | nil => exact (List.append_nil noted).symm
  | cons slot rest ih =>
    have here : ((updating word slot).run noted).2 = noted ++ [slot] := rfl
    rw [Visitor.told, List.foldl_cons, here]
    exact (ih _).trans (List.append_assoc noted [slot] rest)

def linkedProgram : List Operation :=
  [.capture (Memory.blank.writeWord 0x1010 0x1008) (fun i => 0x8000 + 0x100 * UInt64.ofNat i)
      [sampleFrame 0x1000, { sampleFrame 0x1010 with references := [⟨0x1010, true, false⟩] }] 0x2000,
    .register ⟨1, 0⟩]

/-- The word that a collector has put into the object reference is found when the frame runs again. -/
theorem Reachable.frozen_bytes_updated : ∃ answer after resumption last,
    (outcome {} linkedProgram).collect (updating 0x7777) 0 [] = .ok (answer, after) ∧
    after.resume ⟨0, 0⟩ {} (.to 0x3000 0x4242) .blank = .ok (resumption, last) ∧
    resumption.memory.word 0x3000 = 0x7777 := by
  have past : Reachable (outcome {} linkedProgram) := reachable_of_replay (replay_outcome (by decide +kernel))
  obtain ⟨⟨answer, after⟩, done⟩ := CallStacks.Failure.exists_of_isOk
    (show ((outcome {} linkedProgram).collect (updating 0x7777) 0 []).isOk = true by decide +kernel)
  have told : ((outcome {} linkedProgram).collect (updating 0x7777) 0 []).map (·.1.2) =
      .ok [⟨⟨1, 0⟩, ⟨0, .interior false⟩, 0x8008⟩, ⟨⟨0, 0⟩, ⟨0, .precise⟩, 0⟩] := by decide +kernel
  have alone : ((outcome {} linkedProgram).collect (updating 0x7777) 0 []).map (fun done =>
      done.2.store.arena.toList.all fun member => member.2.places.Pairwise Buffer.Separate) = .ok true := by
    decide +kernel
  have kept : ((outcome {} linkedProgram).collect (updating 0x7777) 0 []).map (fun done =>
      (done.2.frame ⟨0, 0⟩).map fun frame => (frame.places, frame.layout.returnOffset)) = .ok (.ok ([], 8)) := by
    decide +kernel
  have resumes : ((outcome {} linkedProgram).collect (updating 0x7777) 0 []).map (fun done =>
      (done.2.resume ⟨0, 0⟩ {} (.to 0x3000 0x4242) .blank).isOk) = .ok true := by
    decide +kernel
  rw [done] at told alone kept resumes
  obtain ⟨frame, live, facts⟩ := CallStacks.Failure.map_eq_ok.mp (Except.ok.inj kept)
  obtain ⟨none, returns⟩ := Prod.mk.inj facts
  obtain ⟨⟨resumption, last⟩, resumed⟩ := CallStacks.Failure.exists_of_isOk (Except.ok.inj resumes)
  obtain ⟨reports, delivered⟩ := collect_delivers done
  have noted : answer.2 = reports := by
    rw [delivered.answered]
    exact told_updating [] reports
  obtain rfl : reports = _ := noted.symm.trans (Except.ok.inj told)
  have put : Put ⟨0, 0⟩ 0 0x7777 after := .given past done delivered (List.nil_append _).symm fun _ => nofun
  have reachable := past.collected done
  have separate : ∀ handle frame, after.frame handle = .ok frame → frame.places.Pairwise Buffer.Separate := by
    intro handle frame known
    obtain ⟨_, _, valid⟩ := reachable.history
    have within := (Arena.mem_toList valid.sound.bounded).mpr (StoreM.frame_eq_ok.mp known)
    exact of_decide_eq_true (List.all_eq_true.mp (Except.ok.inj alone) _ within)
  have found := (reachable.frozen_bytes separate).2 _ _ _ _ _ _ _ live resumed
  refine ⟨answer, after, resumption, last, done, resumed, found.2.2 0 0x7777 put ?_ ?_⟩
  · exact none ▸ fun _ => nofun
  · rw [returns]
    decide

end Freezer
end CallStacks.Frozen
