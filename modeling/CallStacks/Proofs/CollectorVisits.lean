import CallStacks.Frozen.Collector
import CallStacks.Proofs.RosterRuns

/-! What a collection reports. The visitor is followed slot by slot; the head's floor may stand for a
whole chain because it is the lowest of the chain. -/

namespace CallStacks.Frozen

variable {σ : Type} {visit : Visitor σ} {store middle final : Store} {roster : Roster}
  {handle head : Handle} {frame : FrozenFrame} {condemned : Generation}

def Visitor.SilentFor (visit : Visitor σ) (owner : Handle) : Prop :=
  ∀ root value state, ((visit ⟨owner, root, value⟩).run state).1 = none

/-- The visitor never gives a word to put into a slot. -/
def Visitor.Silent (visit : Visitor σ) : Prop := ∀ owner, visit.SilentFor owner

def Visitor.told (visit : Visitor σ) (state : σ) (reports : List RootSlot) : σ :=
  reports.foldl (fun state slot => ((visit slot).run state).2) state

namespace Store

def Holds (store : Store) (slot : RootSlot) : Prop :=
  ∃ frame place, store.arena.find? slot.owner = some frame ∧
    frame.layout.bufferOffset slot.root.offset = .ok place ∧ frame.buffer.read place = .ok slot.value

/-- The slots of a frame that may refer to a condemned generation. -/
def dueOf (store : Store) (condemned : Generation) (handle : Handle) : List (Handle × Root) :=
  match store.arena.find? handle with
  | none => []
  | some frame =>
    if frame.floor ≤ condemned then
      frame.layout.objects.map (fun offset => (handle, ⟨offset, .precise⟩)) ++
        frame.layout.interiors.map fun slot => (handle, ⟨slot.offset, .interior slot.pinned⟩)
    else []

def due (store : Store) (condemned : Generation) (handles : List Handle) : List (Handle × Root) :=
  handles.flatMap (store.dueOf condemned)

theorem dueOf_of_low (live : store.arena.find? handle = some frame) (low : frame.floor ≤ condemned) :
    store.dueOf condemned handle = frame.layout.roots.map (handle, ·) := by
  simp only [dueOf, live, low, if_true, Layout.roots, List.map_append, List.map_map, Function.comp_def]

private theorem dueOf_of_high (live : store.arena.find? handle = some frame) (high : condemned < frame.floor) :
    store.dueOf condemned handle = [] := by
  have not : ¬ frame.floor ≤ condemned := Int.not_le.mpr high
  simp only [dueOf, live, not, if_false]

private theorem due_undisturbed (kept : Undisturbed FrozenFrame.offBytes store final) (handles : List Handle) :
    final.due condemned handles = store.due condemned handles := by
  have same : final.dueOf condemned = store.dueOf condemned := by
    funext handle
    have views := (kept.coarsen (fun frame => (frame.floor, frame.layout))
      (fun frame => (frame.floor, frame.layout)) fun _ => rfl).frames handle
    unfold dueOf
    cases before : store.arena.find? handle <;> cases after : final.arena.find? handle <;>
      simp_all
  rw [due, same, due]

end Store

namespace Visitor
open Store

/-- A part of a collection has reported these slots, and changed nothing but bytes. -/
structure Reported (visit : Visitor σ) (slots : List (Handle × Root)) (seen answer : Nat × σ)
    (store final : Store) : Prop where
  reports : ∃ reports : List RootSlot, reports.map (fun slot => (slot.owner, slot.root)) = slots ∧
    answer = (seen.1 + reports.length, visit.told seen.2 reports) ∧
    (visit.Silent → ∀ slot ∈ reports, store.Holds slot)
  kept : Undisturbed FrozenFrame.offBytes store final
  silent : visit.Silent → final = store

theorem Reported.none (seen : Nat × σ) (store : Store) : Reported visit [] seen seen store store :=
  ⟨⟨[], rfl, rfl, fun _ => by simp⟩, .refl store, fun _ => rfl⟩

theorem Reported.trans {slots more : List (Handle × Root)} {seen answer last : Nat × σ}
    (first : Reported visit slots seen answer store middle)
    (second : Reported visit more answer last middle final) :
    Reported visit (slots ++ more) seen last store final := by
  obtain ⟨reports, same, rfl, held⟩ := first.reports
  obtain ⟨others, same', rfl, held'⟩ := second.reports
  refine ⟨⟨reports ++ others, ?_, ?_, fun silent slot within => ?_⟩, first.kept.trans second.kept,
    fun silent => ?_⟩
  · rw [List.map_append, same, same']
  · simp only [told, List.foldl_append, List.length_append, Nat.add_assoc]
  · rcases List.mem_append.mp within with early | late
    · exact held silent slot early
    · exact first.silent silent ▸ held' silent slot late
  · rw [second.silent silent, first.silent silent]

private theorem slot_spec {owner : Handle} {layout : Layout} {root : Root} {buffer after : Buffer}
    {state last : σ} (done : visit.slot owner layout root buffer state = .ok (after, last)) :
    (∃ place value, layout.bufferOffset root.offset = .ok place ∧ buffer.read place = .ok value ∧
      last = visit.told state [⟨owner, root, value⟩]) ∧
      after.base = buffer.base ∧ (visit.SilentFor owner → after = buffer) := by
  unfold slot at done
  obtain ⟨place, placed, done⟩ := CallStacks.Failure.bind_eq_ok.mp done
  obtain ⟨value, read, done⟩ := CallStacks.Failure.bind_eq_ok.mp done
  split at done
  next word next answered =>
    obtain ⟨written, wrote, done⟩ := CallStacks.Failure.bind_eq_ok.mp done
    obtain ⟨_, rfl⟩ := (Buffer.writeBytes_eq_ok_iff _ _ _ _).mp wrote
    cases done
    refine ⟨⟨place, value, placed, read, by simp [told, answered]⟩, rfl, fun silent => ?_⟩
    have no := silent root value state
    rw [answered] at no
    cases no
  next next answered =>
    cases done
    exact ⟨⟨place, value, placed, read, by simp [told, answered]⟩, rfl, fun _ => rfl⟩

theorem run_spec {owner : Handle} {layout : Layout} {roots : List Root} {buffer after : Buffer}
    {state last : σ} {count : Nat}
    (done : visit.run owner layout roots buffer state = .ok (after, count, last)) :
    (∃ reports : List RootSlot,
      reports.map (fun slot => (slot.owner, slot.root)) = roots.map (owner, ·) ∧
        count = reports.length ∧ last = visit.told state reports ∧
        (visit.SilentFor owner → ∀ slot ∈ reports, slot.owner = owner ∧ ∃ place,
          layout.bufferOffset slot.root.offset = .ok place ∧ buffer.read place = .ok slot.value)) ∧
      after.base = buffer.base ∧ (visit.SilentFor owner → after = buffer) := by
  induction roots generalizing buffer state count with
  | nil =>
    cases done
    exact ⟨⟨[], rfl, rfl, rfl, fun _ => by simp⟩, rfl, fun _ => rfl⟩
  | cons root rest ih =>
    unfold run at done
    obtain ⟨⟨written, next⟩, first, done⟩ := CallStacks.Failure.bind_eq_ok.mp done
    obtain ⟨⟨after', count', last'⟩, others, done⟩ := CallStacks.Failure.bind_eq_ok.mp done
    cases done
    obtain ⟨⟨place, value, placed, read, rfl⟩, base, quiet⟩ := slot_spec first
    obtain ⟨⟨reports, same, rfl, rfl, held⟩, base', quiet'⟩ := ih others
    refine ⟨⟨⟨owner, root, value⟩ :: reports, by simp [same], rfl, rfl, fun silent slot within => ?_⟩,
      base'.trans base, fun silent => ?_⟩
    · rcases List.mem_cons.mp within with rfl | within
      · exact ⟨rfl, place, placed, read⟩
      · exact quiet silent ▸ held silent slot within
    · rw [quiet' silent, quiet silent]

theorem frame_spec {seen answer : Nat × σ}
    (done : visit.frame condemned seen handle store = .ok answer final) :
    Reported visit (store.dueOf condemned handle) seen answer store final := by
  unfold frame at done
  obtain ⟨frame, _, asked, done⟩ := EStateM.bind_eq_ok.mp done
  obtain ⟨known, rfl⟩ := StoreM.ask_eq_ok.mp asked
  have live := StoreM.frame_eq_ok.mp known
  split at done
  next high =>
    obtain ⟨rfl, rfl⟩ := EStateM.pure_eq_ok.mp done
    rw [dueOf_of_high live high]
    exact .none seen store
  next low =>
    obtain ⟨⟨buffer, count, last⟩, _, asked, done⟩ := EStateM.bind_eq_ok.mp done
    obtain ⟨ran, rfl⟩ := StoreM.ask_eq_ok.mp asked
    obtain ⟨_, middle, changed, done⟩ := EStateM.bind_eq_ok.mp done
    obtain rfl := EStateM.modify_eq_ok.mp changed
    obtain ⟨rfl, rfl⟩ := EStateM.pure_eq_ok.mp done
    obtain ⟨⟨reports, same, rfl, rfl, held⟩, base, quiet⟩ :=
      run_spec (CallStacks.Failure.ofRefusal_eq_ok.mp ran)
    rw [dueOf_of_low live (Int.not_lt.mp low)]
    refine ⟨⟨reports, same, rfl, fun silent slot within => ?_⟩, .setFrame live ?_, fun silent => ?_⟩
    · obtain ⟨rfl, place, placed, read⟩ := held (silent handle) slot within
      exact ⟨frame, place, live, placed, read⟩
    · simp only [FrozenFrame.offBytes, base]
    · rw [quiet (silent handle)]
      unfold Store.setFrame
      rw [Arena.set_self live]

private theorem members_spec {handles : List Handle} {seen answer : Nat × σ}
    (done : handles.foldlM (visit.frame condemned) seen store = .ok answer final) :
    Reported visit (store.due condemned handles) seen answer store final := by
  induction handles generalizing store seen with
  | nil =>
    obtain ⟨rfl, rfl⟩ := EStateM.pure_eq_ok.mp done
    exact .none seen store
  | cons handle rest ih =>
    rw [List.foldlM_cons] at done
    obtain ⟨next, middle, first, others⟩ := EStateM.bind_eq_ok.mp done
    have one := frame_spec first
    have more := ih others
    rw [due_undisturbed one.kept] at more
    exact one.trans more

private theorem due_of_high_head {chain : List Handle} (lowest : HeadLowest store chain)
    (last : chain.getLast? = some head) (live : store.arena.find? head = some frame)
    (high : condemned < frame.floor) : store.due condemned chain.reverse = [] := by
  apply List.flatMap_eq_nil_iff.mpr
  intro handle within
  cases known : store.arena.find? handle with
  | none => simp only [dueOf, known]
  | some member =>
    apply dueOf_of_high known
    have floors : member.floor ∈ store.floors chain :=
      mem_floors.mpr ⟨handle, List.mem_reverse.mp within, member, known, rfl⟩
    have least := lowest head last frame.floor (floor?_of_frame live) _ floors
    exact Int.lt_of_lt_of_le high least

theorem chain_spec {before : List Handle} {seen answer : Nat × σ} (valid : Valid store roster)
    (member : before ++ [head] ∈ roster.chains)
    (done : visit.chain condemned seen head store = .ok answer final) :
    Reported visit (store.due condemned (before ++ [head]).reverse) seen answer store final := by
  unfold chain at done
  obtain ⟨frame, _, asked, done⟩ := EStateM.bind_eq_ok.mp done
  obtain ⟨known, rfl⟩ := StoreM.ask_eq_ok.mp asked
  split at done
  next high =>
    obtain ⟨rfl, rfl⟩ := EStateM.pure_eq_ok.mp done
    rw [due_of_high_head (valid.lowest _ member) (by simp) (StoreM.frame_eq_ok.mp known) high]
    exact .none seen store
  next =>
    obtain ⟨members, _, asked, done⟩ := EStateM.bind_eq_ok.mp done
    obtain ⟨listed, rfl⟩ := StoreM.ask_eq_ok.mp asked
    rw [chainMembers_eq (valid.linked _ member) (valid.chain_distinct member)] at listed
    cases listed
    rw [List.reverse_append]
    exact members_spec done

private theorem heads_spec {chains : List (List Handle)} {seen answer : Nat × σ} (valid : Valid store roster)
    (within : chains ⊆ roster.chains)
    (done : (chains.filterMap List.getLast?).foldlM (visit.chain condemned) seen store = .ok answer final) :
    Reported visit (store.due condemned (chains.flatMap List.reverse)) seen answer store final := by
  induction chains generalizing store seen with
  | nil =>
    obtain ⟨rfl, rfl⟩ := EStateM.pure_eq_ok.mp done
    exact .none seen store
  | cons chain rest ih =>
    have member := within List.mem_cons_self
    obtain ⟨before, head, rfl⟩ : ∃ before head, chain = before ++ [head] := by
      cases last : chain.getLast? with
      | none => exact absurd (List.getLast?_eq_none_iff.mp last) (valid.inhabited chain member)
      | some head =>
        obtain ⟨before, rfl⟩ := List.getLast?_eq_some_iff.mp last
        exact ⟨before, head, rfl⟩
    have heads : ((before ++ [head]) :: rest).filterMap List.getLast? = head :: rest.filterMap List.getLast? := by
      simp
    rw [heads, List.foldlM_cons] at done
    obtain ⟨next, middle, first, others⟩ := EStateM.bind_eq_ok.mp done
    have one := chain_spec valid member first
    have more := ih (valid.repainted one.kept) (fun other inner => within (List.mem_cons_of_mem _ inner)) others
    rw [due_undisturbed one.kept] at more
    rw [due, List.flatMap_cons, List.flatMap_append]
    exact one.trans more

theorem chains_spec {state : σ} {answer : Nat × σ} (valid : Valid store roster)
    (done : visit.chains condemned state store = .ok answer final) :
    Reported visit (store.due condemned (roster.registered.flatMap List.reverse)) (0, state) answer
      store final := by
  unfold chains at done
  obtain ⟨heads, _, asked, done⟩ := EStateM.bind_eq_ok.mp (StoreM.insisting_eq_ok.mp done)
  obtain ⟨listed, rfl⟩ := StoreM.ask_eq_ok.mp asked
  rw [valid.heads_eq] at listed
  cases listed
  exact heads_spec valid (fun chain member => List.mem_append_left _ member) done

end Visitor
end CallStacks.Frozen
