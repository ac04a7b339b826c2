import CallStacks.Proofs.CollectorVisits
import CallStacks.Proofs.Readiness

/-! What a collection writes. The words that the visitor gives go into the slots that it has given them for, one
after another, and a word stays where it is until another one is given for some of its bytes. -/

namespace CallStacks.Frozen

namespace FrozenFrame

variable {frame middle filled : FrozenFrame} {writes more : List (UInt32 × Word)} {offset : UInt32} {index : Nat}
  {word : Word}

def put (frame : FrozenFrame) (offset : UInt32) (word : Word) : Except Refusal FrozenFrame := do
  let buffer ← frame.buffer.write (← frame.layout.bufferOffset offset) word
  return { frame with buffer }

def fill (frame : FrozenFrame) (writes : List (UInt32 × Word)) : Except Refusal FrozenFrame :=
  writes.foldlM (fun frame write => frame.put write.1 write.2) frame

private theorem fill_append (first : frame.fill writes = .ok middle) (second : middle.fill more = .ok filled) :
    frame.fill (writes ++ more) = .ok filled := by
  unfold fill at first second ⊢
  rw [List.foldlM_append, first]
  exact second

private theorem put_eq_ok : frame.put offset word = .ok filled ↔ ∃ place buffer,
    frame.layout.bufferOffset offset = .ok place ∧ frame.buffer.write place word = .ok buffer ∧
      filled = { frame with buffer } := by
  unfold put
  constructor
  · intro done
    obtain ⟨place, placed, done⟩ := CallStacks.Failure.bind_eq_ok.mp done
    obtain ⟨buffer, wrote, done⟩ := CallStacks.Failure.bind_eq_ok.mp done
    cases done
    exact ⟨place, buffer, placed, wrote, rfl⟩
  · rintro ⟨place, buffer, placed, wrote, rfl⟩
    simp only [placed, wrote, bind, Except.bind, pure, Except.pure]

private theorem layout_of_fill (done : frame.fill writes = .ok filled) : filled.layout = frame.layout := by
  apply CallStacks.Failure.foldlM_invariant (fun now : FrozenFrame => now.layout = frame.layout) done rfl
  intro write _ now next same stored
  obtain ⟨_, _, _, _, rfl⟩ := put_eq_ok.mp stored
  exact same

theorem byte_fill (whole : frame.layout.unrecorded = 0) (done : frame.fill writes = .ok filled)
    (outside : ∀ write ∈ writes, ¬ Buffer.Covered write.1.toNat index) :
    filled.buffer.bytes[index]? = frame.buffer.bytes[index]? := by
  refine (CallStacks.Failure.foldlM_invariant (fun now : FrozenFrame => now.layout = frame.layout ∧
    now.buffer.bytes[index]? = frame.buffer.bytes[index]?) done ⟨rfl, rfl⟩ ?_).2
  intro write within now next same stored
  obtain ⟨place, buffer, placed, wrote, rfl⟩ := put_eq_ok.mp stored
  rw [Layout.bufferOffset_of_whole (same.1 ▸ whole)] at placed
  cases placed
  exact ⟨same.1, (Buffer.byte_written wrote (outside write within)).trans same.2⟩

private theorem size_of_fill (done : frame.fill writes = .ok filled) : filled.buffer.size = frame.buffer.size := by
  apply CallStacks.Failure.foldlM_invariant (fun now : FrozenFrame => now.buffer.size = frame.buffer.size) done rfl
  intro write _ now next same stored
  obtain ⟨place, buffer, _, wrote, rfl⟩ := put_eq_ok.mp stored
  obtain ⟨_, rfl⟩ := (Buffer.writeBytes_eq_ok_iff _ _ _ _).mp wrote
  exact (Buffer.size_overlay _ _ _).trans same

theorem read_fill_apart (whole : frame.layout.unrecorded = 0) (done : frame.fill writes = .ok filled)
    {place : Nat} (apart : ∀ write ∈ writes, Buffer.Apart write.1.toNat place) :
    filled.buffer.read place = frame.buffer.read place := by
  apply Buffer.read_congr (size_of_fill done)
  exact fun index covered => byte_fill whole done fun write within => (apart write within).not_covered covered

/-- What is put in last is what is read. -/
theorem read_fill {before later : List (UInt32 × Word)} (whole : frame.layout.unrecorded = 0)
    (done : frame.fill (before ++ (offset, word) :: later) = .ok filled)
    (apart : ∀ write ∈ later, Buffer.Apart write.1.toNat offset.toNat) :
    filled.buffer.read offset.toNat = .ok word := by
  unfold fill at done
  rw [List.foldlM_append] at done
  obtain ⟨middle, early, done⟩ := CallStacks.Failure.bind_eq_ok.mp done
  rw [List.foldlM_cons] at done
  obtain ⟨next, stored, late⟩ := CallStacks.Failure.bind_eq_ok.mp done
  obtain ⟨place, buffer, placed, wrote, rfl⟩ := put_eq_ok.mp stored
  have same : middle.layout = frame.layout := layout_of_fill early
  rw [Layout.bufferOffset_of_whole (same ▸ whole)] at placed
  cases placed
  rw [read_fill_apart (same ▸ whole) late apart]
  exact Buffer.read_written wrote

end FrozenFrame

namespace Visitor

variable {σ : Type} {visit : Visitor σ} {state last : σ} {owner handle : Handle} {reports more : List RootSlot}
  {store middle final : Store} {frame : FrozenFrame} {seen answer : Nat × σ}

/-- The words that a visitor gives for the slots of one frame, in the order in which it is shown them. -/
def given (visit : Visitor σ) (owner : Handle) : σ → List RootSlot → List (UInt32 × Word)
  | _, [] => []
  | state, slot :: rest =>
    let answer := (visit slot).run state
    (if slot.owner = owner then answer.1.toList.map (slot.root.offset, ·) else []) ++ given visit owner answer.2 rest

private theorem given_append : visit.given owner state (reports ++ more) =
    visit.given owner state reports ++ visit.given owner (visit.told state reports) more := by
  induction reports generalizing state with
  | nil => rfl
  | cons slot rest ih =>
    simp only [List.cons_append, given, ih, told, List.foldl_cons, List.append_assoc]

theorem reported_of_given {offset : UInt32} {word : Word} (within : (offset, word) ∈ visit.given owner state reports) :
    ∃ slot ∈ reports, slot.owner = owner ∧ slot.root.offset = offset := by
  induction reports generalizing state with
  | nil => cases within
  | cons slot rest ih =>
    rcases List.mem_append.mp within with here | later
    · split at here
      next same =>
        obtain ⟨_, _, equal⟩ := List.mem_map.mp here
        exact ⟨slot, List.mem_cons_self, same, congrArg Prod.fst equal⟩
      next => cases here
    · obtain ⟨slot, inside, facts⟩ := ih later
      exact ⟨slot, List.mem_cons_of_mem _ inside, facts⟩

private theorem given_elsewhere (elsewhere : ∀ slot ∈ reports, slot.owner ≠ owner) :
    visit.given owner state reports = [] := by
  apply List.eq_nil_iff_forall_not_mem.mpr
  intro write within
  obtain ⟨slot, inside, same, _⟩ := reported_of_given within
  exact elsewhere slot inside same

/-- A part of a collection has shown these slots to the visitor, and has put into each frame the words that the
visitor has given for it. -/
structure Delivered (visit : Visitor σ) (reports : List RootSlot) (seen answer : Nat × σ) (store final : Store) :
    Prop where
  answered : answer = (seen.1 + reports.length, visit.told seen.2 reports)
  recorded : ∀ slot ∈ reports, ∃ frame, store.arena.find? slot.owner = some frame ∧ slot.root ∈ frame.layout.roots
  filled : ∀ handle frame, store.arena.find? handle = some frame →
    ∃ now, frame.fill (visit.given handle seen.2 reports) = .ok now ∧ final.arena.find? handle = some now
  others : ∀ handle, store.arena.find? handle = none → final.arena.find? handle = none

theorem Delivered.none (seen : Nat × σ) (store : Store) : Delivered visit [] seen seen store store :=
  ⟨rfl, fun _ => nofun, fun _ frame live => ⟨frame, rfl, live⟩, fun _ => id⟩

theorem Delivered.trans {last : Nat × σ} (first : Delivered visit reports seen answer store middle)
    (second : Delivered visit more answer last middle final) :
    Delivered visit (reports ++ more) seen last store final := by
  obtain ⟨rfl, recorded, filled, others⟩ := first
  obtain ⟨rfl, recorded', filled', others'⟩ := second
  refine ⟨?_, fun slot within => ?_, fun handle frame live => ?_, fun handle gone => others' handle (others handle gone)⟩
  · simp only [told, List.foldl_append, List.length_append, Nat.add_assoc]
  · rcases List.mem_append.mp within with early | late
    · exact recorded slot early
    · obtain ⟨between, held, known⟩ := recorded' slot late
      cases live : store.arena.find? slot.owner with
      | none =>
        rw [others _ live] at held
        cases held
      | some frame =>
        obtain ⟨now, done, held'⟩ := filled _ frame live
        obtain rfl : between = now := Option.some.inj (held.symm.trans held')
        exact ⟨frame, rfl, FrozenFrame.layout_of_fill done ▸ known⟩
  · obtain ⟨between, done, held⟩ := filled handle frame live
    obtain ⟨now, done', held'⟩ := filled' handle between held
    exact ⟨now, given_append ▸ FrozenFrame.fill_append done done', held'⟩

private theorem slot_delivers {root : Root} {after : Buffer}
    (done : visit.slot owner frame.layout root frame.buffer state = .ok (after, last)) :
    ∃ value, last = visit.told state [⟨owner, root, value⟩] ∧
      frame.fill (visit.given owner state [⟨owner, root, value⟩]) = .ok { frame with buffer := after } := by
  unfold slot at done
  obtain ⟨place, placed, done⟩ := CallStacks.Failure.bind_eq_ok.mp done
  obtain ⟨value, read, done⟩ := CallStacks.Failure.bind_eq_ok.mp done
  refine ⟨value, ?_⟩
  split at done
  next word next answered =>
    obtain ⟨written, wrote, done⟩ := CallStacks.Failure.bind_eq_ok.mp done
    cases done
    refine ⟨by simp only [told, List.foldl_cons, List.foldl_nil, answered], ?_⟩
    have put := FrozenFrame.put_eq_ok.mpr ⟨place, after, placed, wrote, rfl⟩
    simp only [given, answered, if_true, Option.toList_some, List.map_cons, List.map_nil, List.append_nil,
      FrozenFrame.fill, List.foldlM_cons, List.foldlM_nil, put]
    rfl
  next next answered =>
    cases done
    refine ⟨by simp only [told, List.foldl_cons, List.foldl_nil, answered], ?_⟩
    simp only [given, answered, if_true, Option.toList_none, List.map_nil, List.append_nil, FrozenFrame.fill,
      List.foldlM_nil]
    rfl

private theorem run_delivers {roots : List Root} {after : Buffer} {count : Nat}
    (done : visit.run owner frame.layout roots frame.buffer state = .ok (after, count, last)) :
    ∃ reports : List RootSlot, (∀ slot ∈ reports, slot.owner = owner ∧ slot.root ∈ roots) ∧
      count = reports.length ∧ last = visit.told state reports ∧
      frame.fill (visit.given owner state reports) = .ok { frame with buffer := after } := by
  induction roots generalizing frame state count with
  | nil =>
    cases done
    exact ⟨[], fun _ => nofun, rfl, rfl, rfl⟩
  | cons root rest ih =>
    unfold run at done
    obtain ⟨⟨written, next⟩, first, done⟩ := CallStacks.Failure.bind_eq_ok.mp done
    obtain ⟨⟨after', count', last'⟩, others, done⟩ := CallStacks.Failure.bind_eq_ok.mp done
    cases done
    obtain ⟨value, rfl, one⟩ := slot_delivers first
    have others : visit.run owner { frame with buffer := written }.layout rest written _ =
        .ok (after, count', last) := others
    obtain ⟨reports, known, rfl, rfl, more⟩ := ih others
    refine ⟨[⟨owner, root, value⟩] ++ reports, fun slot within => ?_, rfl, rfl, ?_⟩
    · rcases List.mem_cons.mp within with rfl | within
      · exact ⟨rfl, List.mem_cons_self⟩
      · exact ⟨(known slot within).1, List.mem_cons_of_mem _ (known slot within).2⟩
    · rw [given_append]
      exact FrozenFrame.fill_append one more

private theorem frame_delivers {condemned : Generation}
    (done : visit.frame condemned seen handle store = .ok answer final) :
    ∃ reports, Delivered visit reports seen answer store final := by
  unfold frame at done
  obtain ⟨frame, _, asked, done⟩ := EStateM.bind_eq_ok.mp done
  obtain ⟨known, rfl⟩ := StoreM.ask_eq_ok.mp asked
  have live := StoreM.frame_eq_ok.mp known
  split at done
  · obtain ⟨rfl, rfl⟩ := EStateM.pure_eq_ok.mp done
    exact ⟨[], .none seen store⟩
  obtain ⟨⟨buffer, count, last⟩, _, asked, done⟩ := EStateM.bind_eq_ok.mp done
  obtain ⟨ran, rfl⟩ := StoreM.ask_eq_ok.mp asked
  obtain ⟨_, middle, changed, done⟩ := EStateM.bind_eq_ok.mp done
  obtain rfl := EStateM.modify_eq_ok.mp changed
  obtain ⟨rfl, rfl⟩ := EStateM.pure_eq_ok.mp done
  obtain ⟨reports, shown, rfl, rfl, filled⟩ := run_delivers (CallStacks.Failure.ofRefusal_eq_ok.mp ran)
  refine ⟨reports, rfl, fun slot within => ?_, fun other old held => ?_, fun other gone => ?_⟩
  · obtain ⟨rfl, root⟩ := shown slot within
    exact ⟨frame, live, root⟩
  · rw [Store.find?_setFrame live]
    by_cases same : other = handle
    · subst same
      obtain rfl : frame = old := Option.some.inj (live.symm.trans held)
      exact ⟨_, filled, if_pos rfl⟩
    · rw [given_elsewhere fun slot within => (shown slot within).1 ▸ Ne.symm same, if_neg same]
      exact ⟨old, rfl, held⟩
  · rw [Store.find?_setFrame live, if_neg, gone]
    rintro rfl
    rw [live] at gone
    cases gone

private theorem foldlM_delivers {step : Nat × σ → Handle → StoreM (Nat × σ)} {handles : List Handle}
    (each : ∀ {seen answer : Nat × σ} {store final : Store} (handle : Handle),
      step seen handle store = .ok answer final → ∃ reports, Delivered visit reports seen answer store final)
    (done : handles.foldlM step seen store = .ok answer final) :
    ∃ reports, Delivered visit reports seen answer store final := by
  induction handles generalizing store seen with
  | nil =>
    obtain ⟨rfl, rfl⟩ := EStateM.pure_eq_ok.mp done
    exact ⟨[], .none seen store⟩
  | cons handle rest ih =>
    rw [List.foldlM_cons] at done
    obtain ⟨next, middle, first, others⟩ := EStateM.bind_eq_ok.mp done
    obtain ⟨reports, one⟩ := each handle first
    obtain ⟨more, last⟩ := ih others
    exact ⟨reports ++ more, one.trans last⟩

private theorem chain_delivers {condemned : Generation} {head : Handle}
    (done : visit.chain condemned seen head store = .ok answer final) :
    ∃ reports, Delivered visit reports seen answer store final := by
  unfold chain at done
  obtain ⟨frame, _, asked, done⟩ := EStateM.bind_eq_ok.mp done
  obtain ⟨_, rfl⟩ := StoreM.ask_eq_ok.mp asked
  split at done
  · obtain ⟨rfl, rfl⟩ := EStateM.pure_eq_ok.mp done
    exact ⟨[], .none seen store⟩
  obtain ⟨members, _, asked, done⟩ := EStateM.bind_eq_ok.mp done
  obtain ⟨_, rfl⟩ := StoreM.ask_eq_ok.mp asked
  exact foldlM_delivers (fun _ => frame_delivers) done

theorem chains_delivers {condemned : Generation} (done : visit.chains condemned state store = .ok answer final) :
    ∃ reports, Delivered visit reports (0, state) answer store final := by
  unfold chains at done
  obtain ⟨heads, _, asked, done⟩ := EStateM.bind_eq_ok.mp (StoreM.insisting_eq_ok.mp done)
  obtain ⟨_, rfl⟩ := StoreM.ask_eq_ok.mp asked
  exact foldlM_delivers (fun _ => chain_delivers) done

end Visitor
end CallStacks.Frozen
