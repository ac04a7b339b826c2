import CallStacks.Proofs.RosterRefinement
import CallStacks.Proofs.RoundTrip
import CallStacks.Proofs.ToldWords

/-! From the stack walk to the collector. When the chain of a capture has been registered, a collection comes to it
first. It is shown the roots that were told of each frame, from the outermost frame to the innermost, and then what
the chains registered before have to show. -/

namespace CallStacks.Frozen

/-- The slots that were told of some frames with their handles, innermost first. The outermost frame comes first. -/
def toldSlots (handles : List Handle) (frames : List LiveFrame) : List (Handle × Root) :=
  (handles.zip frames).reverse.flatMap fun (handle, live) => live.roots.map (handle, ·)

theorem LiveFrame.FrozenAs.congr {live : LiveFrame} {memory : Memory} {old new : FrozenFrame}
    (frozen : live.FrozenAs memory old) (same : new.content = old.content) : live.FrozenAs memory new := by
  have buffer : new.buffer = old.buffer := congrArg (·.1) same
  have layout : new.layout = old.layout := congrArg (·.2.1) same
  exact ⟨layout ▸ frozen.whole, layout ▸ frozen.roots, frozen.places, buffer ▸ frozen.fits, buffer ▸ frozen.words⟩

namespace Store

variable {store final : Store} {handles : List Handle} {frames : List LiveFrame} {memory : Memory}
  {context : CaptureContext} {count : Nat} {capture : Capture} {condemned : Generation}

/-- The store holds frames as they were told of, all of them with the youngest floor. -/
def Keeps (store : Store) (memory : Memory) (handles : List Handle) (frames : List LiveFrame) : Prop :=
  List.Forall₂ (fun handle live => ∃ frozen, store.arena.find? handle = some frozen ∧
    frozen.floor = Generation.youngest ∧ live.FrozenAs memory frozen) handles frames

private theorem keeps_of_walk (walked : Capture.walk context {} frames = .ok (count, capture))
    (located : ∀ live ∈ suspended frames, live.Located context)
    (installed : Installed capture.frames handles store final) :
    final.Keeps context.memory handles (suspended frames) := by
  obtain ⟨sources, copies⟩ := Capture.copies_eq walked
  have held := installed.held
  rw [← copies, List.forall₂_map_right_iff, List.forall₂_iff_zip] at held
  obtain ⟨length, each⟩ := held
  rw [Keeps, ← sources, List.forall₂_map_right_iff, List.forall₂_iff_zip]
  refine ⟨length, @fun handle this paired => ?_⟩
  have member := (List.of_mem_zip paired).2
  obtain ⟨frozen, live, same⟩ := Option.map_eq_some_iff.mp (each paired)
  have told : this.source.Located context := located _ (sources ▸ List.mem_map_of_mem member)
  have fresh := Capture.fresh_of_walk walked this.copy (copies ▸ List.mem_map_of_mem member)
  have floor : frozen.offChain.floor = this.copy.offChain.floor := congrArg FrozenFrame.floor same
  have content : frozen.offChain.content = this.copy.offChain.content := congrArg FrozenFrame.content same
  exact ⟨frozen, live, floor.trans fresh.floor, (Capture.frozenAs_of_walk walked member told).congr content⟩

theorem Keeps.agrees (keeps : store.Keeps memory handles frames) (agrees : Agrees FrozenFrame.offRing store final) :
    final.Keeps memory handles frames := by
  refine keeps.imp fun handle live kept => ?_
  obtain ⟨old, known, floor, frozen⟩ := kept
  obtain ⟨new, held, same⟩ := agrees.forward known
  have floors : new.offRing.floor = old.offRing.floor := congrArg FrozenFrame.floor same
  have content : new.offRing.content = old.offRing.content := congrArg FrozenFrame.content same
  exact ⟨new, held, floors.trans floor, frozen.congr content⟩

theorem Keeps.readable (keeps : store.Keeps memory handles frames) : ∀ handle ∈ handles, store.Readable handle := by
  intro handle within
  obtain ⟨live, _, frozen, held, _, frozenAs⟩ := held_of_mem keeps within
  exact ⟨frozen, held, frozenAs.whole, frozenAs.roots ▸ frozenAs.fits⟩

theorem Keeps.due_eq (keeps : store.Keeps memory handles frames) (low : 0 ≤ condemned) :
    store.due condemned handles.reverse = toldSlots handles frames := by
  obtain ⟨length, each⟩ := List.forall₂_iff_zip.mp keeps
  have firsts : (handles.zip frames).map Prod.fst = handles := List.map_fst_zip (Nat.le_of_eq length)
  conv_lhs => rw [← firsts]
  rw [due, ← List.map_reverse, List.flatMap_map, toldSlots]
  refine List.flatMap_congr fun pair within => ?_
  obtain ⟨frozen, held, floor, frozenAs⟩ := each (List.mem_reverse.mp within)
  rw [dueOf_of_low held (floor ▸ low), frozenAs.roots]

end Store

namespace Freezer
open Store

variable {freezer middle : Freezer} {roster : Roster} {handles others : List Handle} {frames : List LiveFrame}
  {memory : Memory} {head : Handle}

/-- A collection begins with the first registered chain and goes on with the others. -/
theorem run_chains {σ : Type} {visit : Visitor σ} {condemned : Generation} {state : σ} {answer : Nat × σ}
    {final : Store} (heads : freezer.store.heads = .ok (head :: others))
    (ran : visit.chain condemned (0, state) head freezer.store = .ok answer final) :
    freezer.run (visit.chains condemned state) =
      { freezer with store := final }.run (others.foldlM (visit.chain condemned) answer) := by
  have opened : (StoreM.ask Store.heads >>= fun heads => heads.foldlM (visit.chain condemned) (0, state))
      freezer.store = others.foldlM (visit.chain condemned) answer final := by
    rw [EStateM.bind_of_ok (StoreM.ask_of_ok heads), List.foldlM_cons, EStateM.bind_of_ok ran]
  unfold Freezer.run Visitor.chains StoreM.insisting
  rw [opened]
  cases others.foldlM (visit.chain condemned) answer final <;> rfl

/-- A collection shows what was told of some frames before all else. It cannot fail there, and later it shows
nothing more of these frames. -/
structure ShowsFirst (freezer : Freezer) (handles : List Handle) (frames : List LiveFrame) (others : List Handle) :
    Prop where
  starts : ∀ {σ : Type} (visit : Visitor σ) (condemned : Generation) (state : σ), 0 ≤ condemned →
    ∃ answer final, visit.Reported (toldSlots handles frames) (0, state) answer freezer.store final ∧
      freezer.collect visit condemned state =
        freezer.collecting ({ freezer with store := final }.run (others.foldlM (visit.chain condemned) answer))
  complete : ∀ {σ : Type} (visit : Visitor σ) (condemned : Generation) (state : σ) (answer : Nat × σ)
    (after : Freezer), 0 ≤ condemned → freezer.collect visit condemned state = .ok (answer, after) →
      ∃ more, visit.Reported (toldSlots handles frames ++ more) (0, state) answer freezer.store after.store ∧
        ∀ slot ∈ more, slot.1 ∉ handles

private theorem showsFirst_of_keeps {before : List Handle} {rest : List (List Handle)}
    (valid : Valid freezer.store roster)
    (keeps : freezer.store.Keeps memory (before ++ [head]) frames)
    (first : roster.registered = (before ++ [head]) :: rest) :
    freezer.ShowsFirst (before ++ [head]) frames (rest.filterMap List.getLast?) := by
  have member : before ++ [head] ∈ roster.chains := List.mem_append_left _ (by simp [first])
  have heads : freezer.store.heads = .ok (head :: rest.filterMap List.getLast?) := by
    rw [valid.heads_eq, Roster.heads, first]
    simp
  refine ⟨fun visit condemned state low => ?_, fun visit condemned state answer after low done => ?_⟩
  · obtain ⟨answer, final, ran⟩ := visit.chain_run valid member condemned (0, state) keeps.readable
    have reported := Visitor.chain_spec valid member ran
    rw [keeps.due_eq low] at reported
    exact ⟨answer, final, reported, by rw [Freezer.collect, run_chains heads ran]⟩
  · obtain ⟨reported, _⟩ := collect_spec valid done
    rw [first, List.flatMap_cons, due, List.flatMap_append] at reported
    have told : (before ++ [head]).reverse.flatMap (freezer.store.dueOf condemned) = _ := keeps.due_eq low
    rw [told] at reported
    refine ⟨_, reported, fun slot shown within => ?_⟩
    obtain ⟨chain, inside, turned⟩ := List.mem_flatMap.mp (owner_of_due shown)
    have distinct := (Roster.distinct_parts valid.distinct).1
    rw [first, List.flatten_cons] at distinct
    exact (List.nodup_append.mp distinct).2.2 _ within _
      (List.mem_flatten.mpr ⟨chain, inside, List.mem_reverse.mp turned⟩) rfl

/-- No reference is lost between the stack walk and the collector. If each reference of a captured frame is in the
frame or in a register that it has saved, the chain can be registered, its frames hold what was told of them, and a
collection shows it before the chains that were registered until then. -/
theorem Reachable.capture_reports {place : Nat → Word} {lives : List LiveFrame} {limit : Word} {visited : Nat}
    {chain : Chain} (reachable : Reachable freezer)
    (captured : freezer.capture memory place lives limit = .ok ((visited, some chain), middle))
    (located : ∀ live ∈ suspended lives, live.Located (freezer.contextOf memory place limit)) :
    ∃ registered handles others, middle.register chain.head = .ok registered ∧
      registered.chainMembers chain.head = .ok handles.reverse ∧
      freezer.store.heads = .ok others ∧ registered.store.heads = .ok (chain.head :: others) ∧
      List.Forall₂ (fun handle live => ∃ frozen, registered.frame handle = .ok frozen ∧ live.FrozenAs memory frozen)
        handles (suspended lives) ∧
      registered.ShowsFirst handles (suspended lives) others := by
  obtain ⟨roster, _, valid⟩ := reachable.history
  obtain ⟨capture, handles, walked, named, installed, valid'⟩ := capture_spec valid captured
  obtain ⟨before, rfl, _⟩ := Chain.leads_of_of? named.symm
  have hidden : before ++ [chain.head] ∈ (roster.add (before ++ [chain.head])).hidden := by simp [Roster.add]
  obtain ⟨registered, done⟩ := register_run valid' hidden
  have ran : StoreM.register chain.head middle.store = .ok () registered.store :=
    (perform_ran (show middle.perform (.register chain.head) = .ok registered from done)).1
  obtain ⟨_, valid''⟩ := register_spec valid' ran
  have keeps := (keeps_of_walk walked located installed).agrees (StoreM.register_agrees chain.head _ _ _ ran)
  have first : ((roster.add (before ++ [chain.head])).reveal chain.head).registered =
      (before ++ [chain.head]) :: roster.registered := by
    rw [Roster.reveal, filter_ledBy (Roster.distinct_parts valid'.distinct).2 hidden]
    rfl
  have member : before ++ [chain.head] ∈ ((roster.add (before ++ [chain.head])).reveal chain.head).chains :=
    List.mem_append_left _ (by simp [first])
  refine ⟨registered, before ++ [chain.head], roster.heads, done, ?_, valid.heads_eq, ?_, ?_,
    showsFirst_of_keeps valid'' keeps first⟩
  · rw [List.reverse_append]
    exact chainMembers_eq (valid''.linked _ member) (valid''.chain_distinct member)
  · rw [valid''.heads_eq, Roster.heads_reveal valid'.distinct hidden]
    rfl
  · refine keeps.imp fun handle live kept => ?_
    obtain ⟨frozen, held, _, frozenAs⟩ := kept
    exact ⟨frozen, StoreM.frame_eq_ok.mpr held, frozenAs⟩

/-- It has saved two registers: one holds an object reference, the other is the frame pointer. -/
def savingFrame : LiveFrame :=
  { holdsMark := true
    sp := 0x1000
    callerSp := 0x1040
    returnSlot := 0x1038
    registers := fun
      | .rbx => some ⟨0x1010, 0x9000, 0x77⟩
      | .rbp => some ⟨0x1018, 0x9008, 0x1020⟩
      | _ => none
    references := [⟨0x1020, true, true⟩, ⟨0x9000, false, false⟩, ⟨0x1000, false, false⟩] }

private theorem registers_savingFrame {register : Register} {slots : RegisterSlots}
    (asked : savingFrame.registers register = some slots) :
    register = .rbx ∧ slots = ⟨0x1010, 0x9000, 0x77⟩ ∨ register = .rbp ∧ slots = ⟨0x1018, 0x9008, 0x1020⟩ := by
  cases register <;> cases asked
  · exact .inl ⟨rfl, rfl⟩
  · exact .inr ⟨rfl, rfl⟩

private theorem separate_savingFrame : savingFrame.Separate := by
  refine ⟨by decide, fun register other slots slots' different held held' => ?_,
    fun reference told register slots held free => ?_⟩
  · obtain ⟨rfl, rfl⟩ | ⟨rfl, rfl⟩ := registers_savingFrame (LiveFrame.saved?_eq_some.mp held).1 <;>
      obtain ⟨rfl, rfl⟩ | ⟨rfl, rfl⟩ := registers_savingFrame (LiveFrame.saved?_eq_some.mp held').1 <;>
      first | exact absurd rfl different | decide
  · obtain ⟨rfl, rfl⟩ | ⟨rfl, rfl⟩ := registers_savingFrame (LiveFrame.saved?_eq_some.mp held).1 <;>
      obtain rfl | rfl | rfl : reference = ⟨0x1020, true, true⟩ ∨ reference = ⟨0x9000, false, false⟩ ∨
        reference = ⟨0x1000, false, false⟩ := by simpa [savingFrame] using told
    all_goals first | decide | exact absurd (by decide) free

private theorem located_savingFrame {context : CaptureContext} (none : context.minArgBytes = 0) :
    savingFrame.Located context := by
  have args : savingFrame.copiedArgs context = 0 := by rw [LiveFrame.copiedArgs, none]; decide
  refine ⟨fun reference told => ?_, fun register other slots slots' asked asked' same => ?_,
    fun register slots asked inside => ?_⟩
  · obtain rfl | rfl | rfl : reference = ⟨0x1020, true, true⟩ ∨ reference = ⟨0x9000, false, false⟩ ∨
      reference = ⟨0x1000, false, false⟩ := by simpa [savingFrame] using told
    · exact .inl (by rw [LiveFrame.Copies, args]; decide)
    · exact .inr ⟨.rbx, ⟨0x1010, 0x9000, 0x77⟩, by decide, rfl⟩
    · exact .inl (by rw [LiveFrame.Copies, args]; decide)
  · obtain ⟨rfl, rfl⟩ | ⟨rfl, rfl⟩ := registers_savingFrame asked <;>
      obtain ⟨rfl, rfl⟩ | ⟨rfl, rfl⟩ := registers_savingFrame asked' <;>
      first | rfl | exact absurd same (by decide)
  · rw [LiveFrame.Copies, args] at inside
    obtain ⟨rfl, rfl⟩ | ⟨rfl, rfl⟩ := registers_savingFrame asked <;> exact absurd inside (by decide)

private theorem located_sampleFrame (context : CaptureContext) : (sampleFrame 0x1040).Located context := by
  refine ⟨fun reference told => ?_, by simp [sampleFrame], by simp [sampleFrame]⟩
  obtain rfl : reference = ⟨0x1040, false, false⟩ := by simpa [sampleFrame] using told
  exact .inl ⟨by decide, Nat.le_trans (by decide) (Nat.le_add_right _ _)⟩

theorem Reachable.capture_reports_sample : ∃ middle registered frozen answer final,
    capture {} (Memory.blank.writeWord 0x1000 0x55) (fun i => 0x8000 + 0x100 * UInt64.ofNat i)
        [savingFrame, sampleFrame 0x1040] 0x2000 = .ok ((2, some ⟨⟨0, 0⟩, ⟨1, 0⟩, 2⟩), middle) ∧
      middle.register ⟨1, 0⟩ = .ok registered ∧ registered.frame ⟨0, 0⟩ = .ok frozen ∧
      frozen.buffer.read 0x10 = .ok 0x77 ∧ frozen.buffer.read 0 = .ok 0x55 ∧
      noting.Reported [(⟨1, 0⟩, ⟨0, .precise⟩), (⟨0, 0⟩, ⟨0x10, .precise⟩), (⟨0, 0⟩, ⟨0, .precise⟩),
        (⟨0, 0⟩, ⟨0x20, .interior true⟩), (⟨0, 0⟩, ⟨0x18, .interior false⟩)] (0, []) answer registered.store final ∧
      registered.collect noting 0 [] = .ok (answer, { registered with store := final }) := by
  have counted : (·.1) <$> capture {} (Memory.blank.writeWord 0x1000 0x55)
      (fun i => 0x8000 + 0x100 * UInt64.ofNat i) [savingFrame, sampleFrame 0x1040] 0x2000 =
        .ok (2, some ⟨⟨0, 0⟩, ⟨1, 0⟩, 2⟩) := by decide +kernel
  obtain ⟨⟨_, middle⟩, captured, rfl⟩ := CallStacks.Failure.map_eq_ok.mp counted
  have located : ∀ live ∈ suspended [savingFrame, sampleFrame 0x1040], live.Located (contextOf {}
      (Memory.blank.writeWord 0x1000 0x55) (fun i => 0x8000 + 0x100 * UInt64.ofNat i) 0x2000) := by
    intro live within
    obtain rfl | rfl : live = savingFrame ∨ live = sampleFrame 0x1040 := by
      simpa using (suspended_sublist _).subset within
    · exact located_savingFrame rfl
    · exact located_sampleFrame _
  obtain ⟨registered, handles, others, done, listed, before, _, held, shows⟩ :=
    (Reachable.fresh {}).capture_reports captured located
  have members : (capture {} (Memory.blank.writeWord 0x1000 0x55) (fun i => 0x8000 + 0x100 * UInt64.ofNat i)
      [savingFrame, sampleFrame 0x1040] 0x2000 >>= fun answer => answer.2.register ⟨1, 0⟩ >>= fun registered =>
        (·, registered.quietScopes) <$> registered.chainMembers ⟨1, 0⟩) = .ok ([⟨1, 0⟩, ⟨0, 0⟩], 0) := by
    decide +kernel
  obtain ⟨_, same, members⟩ := CallStacks.Failure.bind_eq_ok.mp members
  obtain rfl := Except.ok.inj (captured.symm.trans same)
  obtain ⟨_, same, members⟩ := CallStacks.Failure.bind_eq_ok.mp members
  obtain rfl := Except.ok.inj (done.symm.trans same)
  rw [listed] at members
  obtain ⟨turned, quiet⟩ := Prod.mk.inj (Except.ok.inj members)
  obtain rfl : handles = [⟨0, 0⟩, ⟨1, 0⟩] := List.reverse_inj.mp turned
  have lives : suspended [savingFrame, sampleFrame 0x1040] = [savingFrame, sampleFrame 0x1040] := rfl
  rw [lives] at held shows
  cases held with
  | cons first rest =>
    obtain ⟨frozen, inner, frozenAs⟩ := first
    have words := frozenAs.words separate_savingFrame
    obtain ⟨answer, final, reported, collected⟩ := shows.starts noting 0 [] (by decide)
    refine ⟨middle, registered, frozen, answer, final, captured, done, inner, ?_, ?_, reported, ?_⟩
    · exact words ⟨0x9000, false, false⟩ (by decide) rfl
    · exact (words ⟨0x1000, false, false⟩ (by decide) rfl).trans (by decide +kernel)
    · obtain rfl : others = [] := Except.ok.inj (before.symm.trans (by decide +kernel))
      rw [collected, collecting, if_pos quiet]
      rfl

end Freezer
end CallStacks.Frozen
