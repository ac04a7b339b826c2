import CallStacks.Proofs.BoundedPlaces

/-! The places that captures record, in the course of a program. A capture makes sure of the places it has to
read or write. What it is told of object references and of the return address it takes on trust, and if it is
told of places outside a frame the collector and the resumption go there. -/

namespace CallStacks.Frozen

/-- Captures are told the truth about the frames that they freeze. -/
def Operation.Truthful : Operation → Prop
  | .capture _ _ frames _ => ∀ live ∈ suspended frames, live.Truthful
  | _ => True

namespace Freezer
open Store

variable {freezer after : Freezer} {roster : Roster} {operation : Operation} {failure : Failure}

theorem run_eq_error {α : Type} {stored : StoreM α} : freezer.run stored = .error failure ↔
    ∃ cause final, stored freezer.store = .error cause final ∧ failure = .stopped cause.fault := by
  unfold run
  cases outcome : stored freezer.store <;> simp [StoreM.insisting, outcome, eq_comm]

theorem Froze.trimmed {frame : FrozenFrame} (froze : freezer.Froze operation frame) :
    frame.Trimmed ∧ (operation.Truthful → frame.Contained) := by
  obtain ⟨_, _, _, _, _, capture, rfl, walked, frozen, within, same⟩ := froze
  have layout : frame.offChain.layout = frozen.offChain.layout := congrArg FrozenFrame.layout same
  have size : frame.offChain.buffer.size = frozen.offChain.buffer.size := congrArg (·.buffer.size) same
  obtain ⟨trimmed, contained⟩ := Capture.trimmed_of_walk walked frozen within
  exact ⟨trimmed.of_settled layout size, fun truthful => (contained truthful).of_settled layout size⟩

theorem Reachable.trimmed (reachable : Reachable freezer) :
    ∀ handle frame, freezer.store.arena.find? handle = some frame → frame.Trimmed := by
  induction reachable with
  | fresh settings => simp [Arena.find?]
  | step operation past done ih =>
    obtain ⟨roster, _, valid⟩ := past.history
    intro handle frame live
    rcases perform_endures valid done handle frame live with ⟨old, known, endures⟩ | ⟨_, froze⟩
    · exact (ih handle old known).of_settled endures.layout endures.size
    · exact froze.trimmed.1

theorem ReachableBy.contained (reachable : ReachableBy Operation.Truthful freezer) : freezer.store.Contained := by
  induction reachable with
  | fresh settings => simp [Store.Contained, Arena.find?]
  | step operation past truthful done ih =>
    obtain ⟨roster, _, valid⟩ := past.reachable.history
    intro handle frame live
    rcases perform_endures valid done handle frame live with ⟨old, known, endures⟩ | ⟨_, froze⟩
    · exact (ih handle old known).endures endures
    · exact froze.trimmed.2 truthful

private theorem collecting_eq_error {α : Type} {part : Except Failure α}
    (failed : freezer.collecting part = .error failure) :
    failure = .stopped .collectingInCapture ∨ part = .error failure := by
  unfold collecting at failed
  split at failed
  · exact .inr failed
  · cases failed
    exact .inl rfl

private theorem collect_failure {σ : Type} {visit : Visitor σ} {condemned : Generation} {state : σ}
    (valid : Valid freezer.store roster) (contained : freezer.store.Contained)
    (failed : freezer.collect visit condemned state = .error failure) : failure = .stopped .collectingInCapture := by
  rcases collecting_eq_error failed with stopped | failed
  · exact stopped
  · obtain ⟨cause, final, broken, _⟩ := run_eq_error.mp failed
    obtain ⟨answer, reached, ran⟩ := visit.chains_run valid contained condemned state
    rw [ran] at broken
    cases broken

private theorem age_failure {condemned oldest : Generation} (valid : Valid freezer.store roster)
    (failed : freezer.age condemned oldest = .error failure) :
    failure = .stopped .collectingInCapture ∨ failure = .stopped .overflow := by
  unfold Freezer.age at failed
  split at failed
  · refine (collecting_eq_error failed).imp id fun failed => ?_
    cases outcome : freezer.run (StoreM.age condemned oldest) with
    | ok answer =>
      rw [outcome] at failed
      cases failed
    | error stopped =>
      rw [outcome] at failed
      cases failed
      obtain ⟨cause, final, broken, rfl⟩ := run_eq_error.mp outcome
      rw [StoreM.age_failure valid broken]
      rfl
  · cases failed

private theorem rejuvenate_failure {heap : Word → Generation} {condemned oldest : Generation}
    (valid : Valid freezer.store roster) (contained : freezer.store.Contained)
    (failed : freezer.rejuvenate heap condemned oldest = .error failure) :
    failure = .stopped .collectingInCapture ∨ failure = .stopped .invertedBounds := by
  unfold Freezer.rejuvenate at failed
  split at failed
  · refine (collecting_eq_error failed).imp id fun failed => ?_
    obtain ⟨cause, final, broken, rfl⟩ := run_eq_error.mp failed
    rw [Rejuvenation.rejuvenate_failure valid contained broken]
    rfl
  · cases failed

private theorem resume_outside {handle : Handle} {frame : FrozenFrame} {value : ResumeValue} {landing : Landing}
    {memory : Memory} {resumption : Resumption} {addr : Word} (valid : Valid freezer.store roster)
    (contained : freezer.store.Contained) (live : freezer.store.arena.find? handle = some frame)
    (done : freezer.resume handle value landing memory = .ok (resumption, after))
    (outside : frame.layout.requirement.toNat ≤ (addr - landing.sp).toNat) :
    resumption.memory.byte addr = memory.byte addr := by
  obtain ⟨removed, thawed, finish, spliced⟩ := resume_spec valid done
  obtain ⟨layout, size⟩ := thawed.removed_settled live
  exact ((contained handle frame live).of_settled layout size).splice_outside spliced (by rwa [layout])

/-- A capture makes sure that save slots and interior pointers lie in the copies it takes, and that a copy is as
long as the space its frame asks for. If it is told the truth about object references and return addresses,
these lie in the copies too: then the collector never comes to a place outside a copy, and a frame that runs
again is written to the space that it has asked for. -/
theorem Reachable.recorded_places (reachable : Reachable freezer) :
    (∀ handle frame, freezer.frame handle = .ok frame → frame.Trimmed) ∧
    (ReachableBy Operation.Truthful freezer →
      (∀ handle frame, freezer.frame handle = .ok frame → frame.Contained) ∧
      (∀ {σ : Type} (visit : Visitor σ) (condemned : Generation) (state : σ) (failure : Failure),
        freezer.collect visit condemned state = .error failure → failure = .stopped .collectingInCapture) ∧
      (∀ condemned oldest failure, freezer.age condemned oldest = .error failure →
        failure = .stopped .collectingInCapture ∨ failure = .stopped .overflow) ∧
      (∀ heap condemned oldest failure, freezer.rejuvenate heap condemned oldest = .error failure →
        failure = .stopped .collectingInCapture ∨ failure = .stopped .invertedBounds) ∧
      ∀ handle frame value landing memory resumption after, freezer.frame handle = .ok frame →
        freezer.resume handle value landing memory = .ok (resumption, after) →
        ∀ addr, frame.layout.requirement.toNat ≤ (addr - landing.sp).toNat →
          resumption.memory.byte addr = memory.byte addr) := by
  obtain ⟨roster, _, valid⟩ := reachable.history
  refine ⟨fun handle frame live => reachable.trimmed handle frame (StoreM.frame_eq_ok.mp live), fun truthful => ?_⟩
  have contained := truthful.contained
  refine ⟨fun handle frame live => contained handle frame (StoreM.frame_eq_ok.mp live),
    fun _ _ _ _ failed => collect_failure valid contained failed, fun _ _ _ failed => age_failure valid failed,
    fun _ _ _ _ failed => rejuvenate_failure valid contained failed, ?_⟩
  intro handle frame value landing memory resumption after live done addr outside
  exact resume_outside valid contained (StoreM.frame_eq_ok.mp live) done outside

private theorem truthful_sampleFrame (sp : Word) (room : sp.toNat + 16 < UInt64.size) : (sampleFrame sp).Truthful := by
  have spans : ∀ offset : Nat, offset ≤ 8 → (sampleFrame sp).Spans (sp + UInt64.ofNat offset) := by
    intro offset small
    simp only [UInt64.size] at room
    simp only [LiveFrame.Spans, sampleFrame, UInt64.toNat_add, UInt64.toNat_ofNat', UInt64.reduceToNat,
      UInt32.reduceToNat]
    omega
  refine ⟨spans 8 (Nat.le_refl _), fun reference told _ => .inl ?_⟩
  obtain rfl := List.mem_singleton.mp told
  have start := spans 0 (Nat.zero_le _)
  rwa [show sp + UInt64.ofNat 0 = sp from UInt64.add_zero sp] at start

theorem Reachable.recorded_places_sample : ∃ frame, (outcome {} sampleProgram).frame ⟨1, 0⟩ = .ok frame ∧
    frame.layout.objects = [0] ∧ frame.Contained := by
  have done : replay {} sampleProgram = .ok (outcome {} sampleProgram) := replay_outcome (by decide +kernel)
  have truthful : ReachableBy Operation.Truthful (outcome {} sampleProgram) := by
    refine (ReachableBy.fresh {}).replayed (fun operation within => ?_) done
    have told : ∀ live ∈ suspended [sampleFrame 0x1000, sampleFrame 0x1010], live.Truthful := by
      intro live within
      have member := (suspended_sublist _).subset within
      simp only [List.mem_cons, List.not_mem_nil, or_false] at member
      rcases member with rfl | rfl <;> exact truthful_sampleFrame _ (by decide)
    simp only [sampleProgram, List.mem_cons, List.not_mem_nil, or_false] at within
    rcases within with rfl | rfl | rfl | rfl
    · exact told
    · trivial
    · exact told
    · trivial
  have objects : ((outcome {} sampleProgram).frame ⟨1, 0⟩).map (·.layout.objects) = .ok [0] := by decide +kernel
  obtain ⟨frame, live, recorded⟩ := CallStacks.Failure.map_eq_ok.mp objects
  exact ⟨frame, live, recorded, (truthful.reachable.recorded_places.2 truthful).1 _ frame live⟩

/-- A frame of sixteen bytes with an object reference and a return address far above it. -/
def strayProgram : List Operation :=
  [.capture .blank (fun _ => 0x8000)
      [{ sampleFrame 0x1000 with returnSlot := 0x10c8, references := [⟨0x1088, false, false⟩] }] 0x2000,
    .register ⟨0, 0⟩]

/-- A capture that is not told the truth is accepted. Then a collection stops at the place of the object
reference, and the return address is written outside the space that the frame asks for. -/
theorem Reachable.stray_places : Reachable (outcome {} strayProgram) ∧
    ((outcome {} strayProgram).frame ⟨0, 0⟩).map
      (fun frame => (frame.layout.objects, frame.layout.returnOffset, frame.layout.requirement, frame.buffer.size)) =
        .ok ([136], 200, 16, 16) ∧
    ((outcome {} strayProgram).collect noting 0 []).map (·.1) =
      .error (.stopped (.violated (.unexpected (.outOfBounds 136 8 16)))) ∧
    ((outcome {} strayProgram).resume ⟨0, 0⟩ {} (.to 0x3000 0x4242) .blank).map (·.1.memory.byte 0x30c8) =
      .ok 0x42 := by
  have done : replay {} strayProgram = .ok (outcome {} strayProgram) := replay_outcome (by decide +kernel)
  exact ⟨reachable_of_replay done, by decide +kernel, by decide +kernel, by decide +kernel⟩

end Freezer
end CallStacks.Frozen
