import Mathlib.Data.List.Chain
import Mathlib.Data.List.Induction
import Mathlib.Data.List.Perm.Subperm
import CallStacks.Proofs.WellLinked

/-! The check of the ring, on a store in any condition. Links may lead anywhere, handles may be stale and the count may
be wrong; the check ends all the same, and it passes exactly if there is a list of heads that the ring runs through,
both ways round, and nothing else carries links. -/

namespace CallStacks.Frozen
open CallStacks.Failure (FailsAs)

/-- Where everything comes after one thing only, a chain comes back to a member only if it comes back to its start. -/
private theorem nodup_of_isChain {α : Type} {precedes : α → α → Prop}
    (unique : ∀ first second member, precedes first member → precedes second member → first = second) {start : α}
    {rest : List α} (chain : List.IsChain precedes (start :: rest)) (fresh : start ∉ rest) : (start :: rest).Nodup := by
  induction rest using List.reverseRecOn with
  | nil => simp
  | append_singleton rest last ih =>
    rw [List.mem_append, not_or] at fresh
    rw [← List.cons_append] at chain ⊢
    have distinct := ih chain.left_of_append fresh.1
    refine List.nodup_append.mpr ⟨distinct, by simp, ?_⟩
    rintro member within other (only : other ∈ [last]) rfl
    obtain rfl := List.mem_singleton.mp only
    rcases List.mem_cons.mp within with rfl | within
    · exact fresh.2 (by simp)
    -- a member that is met again has the same predecessor both times, and that is met twice before it
    obtain ⟨earlier, later, rfl⟩ := List.append_of_mem within
    rw [← List.cons_append] at chain distinct
    have early := chain.left_of_append.rel_getLast_head_of_append (by simp) (by simp)
    have late := chain.rel_getLast_head_of_append (by simp) (by simp)
    rw [List.head_cons] at early
    rw [List.head_singleton, List.getLast_append_of_ne_nil _ (by simp)] at late
    exact (List.nodup_append.mp distinct).2.2 _ (List.getLast_mem (by simp)) _ (List.getLast_mem (by simp))
      (unique _ _ _ early late)

namespace Store

variable {store : Store} {heads : List Handle} {handle : Handle} {before last node : RingNode} {count budget : Nat}

/-- The ring runs through exactly these heads, from the anchor back to the anchor and in both directions, and no other
slot holds a frame with links. -/
structure Encircles (store : Store) (heads : List Handle) : Prop where
  distinct : heads.Nodup
  closed : List.IsChain store.Adjacent (RingNode.anchor :: (heads.map RingNode.head ++ [RingNode.anchor]))
  outer : ∀ handle ∈ heads, ∃ frame, store.arena.find? handle = some frame ∧ frame.isHead
  counted : store.registered = heads.length
  exclusive : ∀ (index : Nat) (slot : Slot FrozenFrame) (frame : FrozenFrame), store.arena.slots[index]? = some slot →
    slot.content = some frame → frame.isRegistered → ∃ handle ∈ heads, handle.index.toNat = index

private theorem guarded_eq_ok {α : Type} {failure : Failure} {wrong : Prop} [Decidable wrong] {rest : Except Failure α}
    {answer : α} :
    (if wrong then (throw failure >>= fun _ : Unit => rest) else rest) = .ok answer ↔ ¬ wrong ∧ rest = .ok answer := by
  split <;> simp_all [throw, throwThe, MonadExceptOf.throw, bind, Except.bind]

private theorem of_checkForward_head (walked : store.checkForward budget before (.head handle) = .ok (count, last)) :
    ∃ links fewer passed, store.ringAt (.head handle) = some links ∧ links.prev = before ∧
      (∃ frame, store.arena.find? handle = some frame ∧ frame.isHead) ∧ budget = fewer + 1 ∧ count = passed + 1 ∧
      store.checkForward fewer (.head handle) links.next = .ok (passed, last) := by
  rcases budget with _ | fewer
  all_goals
    unfold checkForward at walked
    obtain ⟨links, look, walked⟩ := CallStacks.Failure.bind_eq_ok.mp walked
    obtain ⟨back, walked⟩ := guarded_eq_ok.mp walked
    obtain ⟨frame, known, walked⟩ := CallStacks.Failure.bind_eq_ok.mp walked
    obtain ⟨outer, walked⟩ := guarded_eq_ok.mp walked
  · cases walked
  · obtain ⟨⟨passed, _⟩, walked, same⟩ := CallStacks.Failure.bind_eq_ok.mp walked
    cases same
    have live := StoreM.frame_eq_ok.mp known
    exact ⟨links, fewer, passed, links_eq_ok.mp look, not_not.mp back, ⟨frame, live, by simpa using outer⟩, rfl, rfl, walked⟩

/-- Going round forwards meets heads that lead to one another, from the place it starts after to the anchor. -/
theorem checkForward_spec {before node : RingNode} {links : RingLinks} {count budget : Nat}
    (walked : store.checkForward budget before node = .ok (count, last)) (held : store.ringAt before = some links)
    (leads : links.next = node) (closing : store.anchor.prev = last) :
    ∃ heads : List Handle, heads.length = count ∧
      List.IsChain store.Adjacent (before :: (heads.map RingNode.head ++ [RingNode.anchor])) ∧
      ∀ handle ∈ heads, ∃ frame, store.arena.find? handle = some frame ∧ frame.isHead := by
  cases node with
  | anchor =>
    obtain ⟨rfl, rfl⟩ : 0 = count ∧ before = last := by
      cases budget <;> exact Prod.mk.inj (Except.ok.inj walked)
    exact ⟨[], rfl, List.isChain_pair.mpr ⟨links, store.anchor, held, leads, rfl, closing⟩, nofun⟩
  | head handle =>
    obtain ⟨other, fewer, passed, look, back, outer, rfl, rfl, onward⟩ := of_checkForward_head walked
    obtain ⟨heads, length, chain, outers⟩ := checkForward_spec onward look rfl closing
    have adjacent : store.Adjacent before (.head handle) := ⟨links, other, held, leads, look, back⟩
    exact ⟨handle :: heads, by simp [length], List.isChain_cons_cons.mpr ⟨adjacent, chain⟩,
      List.forall_mem_cons.mpr ⟨outer, outers⟩⟩
termination_by budget

def linkedSlots (store : Store) : List Nat :=
  (store.arena.slots.toList.zipIdx.filter fun entry => entry.1.content.any (·.isRegistered)).map (·.2)

private theorem mem_linkedSlots {index : Nat} : index ∈ store.linkedSlots ↔ ∃ slot frame,
    store.arena.slots[index]? = some slot ∧ slot.content = some frame ∧ frame.isRegistered := by
  simp only [linkedSlots, List.mem_map, List.mem_filter, Prod.exists, exists_eq_right,
    List.mem_zipIdx_iff_getElem?, Array.getElem?_toList, Option.any_eq_true]
  constructor
  · rintro ⟨slot, held, frame, content, linked⟩
    exact ⟨slot, frame, held, content, linked⟩
  · rintro ⟨slot, frame, held, content, linked⟩
    exact ⟨slot, held, frame, content, linked⟩

private theorem nodup_linkedSlots : store.linkedSlots.Nodup := by
  refine List.Sublist.nodup (List.filter_sublist.map _) ?_
  rw [List.zipIdx_map_snd]
  exact List.nodup_range'

private theorem countP_linked : store.arena.toList.countP (·.2.isRegistered) = store.linkedSlots.length := by
  rw [Arena.toList, List.countP_filterMap, linkedSlots, List.length_map, ← List.countP_eq_length_filter]
  refine List.countP_congr fun entry _ => ?_
  cases content : entry.1.content <;> simp [content]

private theorem mem_linkedSlots_of_head {links : RingLinks} (held : store.ringAt (.head handle) = some links) :
    handle.index.toNat ∈ store.linkedSlots := by
  obtain ⟨frame, live, linked⟩ := Option.bind_eq_some_iff.mp held
  refine mem_linkedSlots.mpr ⟨_, frame, Arena.find?_eq_some_iff.mp live, rfl, ?_⟩
  simp [FrozenFrame.isRegistered, linked]

private theorem adjacent_of_closed {before after : List Handle}
    (closed : List.IsChain store.Adjacent (RingNode.anchor :: (heads.map RingNode.head ++ [RingNode.anchor])))
    (split : heads = before ++ after) :
    store.Adjacent (.ofHandle? before.getLast?) (.ofHandle? after.head?) := by
  rw [split, List.map_append, List.append_assoc, ← List.cons_append] at closed
  refine (List.isChain_append.mp closed).2.2 _ ?_ _ ?_
  · rcases List.eq_nil_or_concat before with rfl | ⟨first, handle, rfl⟩
    · rfl
    · rw [List.concat_eq_append, List.map_append, List.map_singleton, ← List.cons_append, List.getLast?_concat,
        List.getLast?_concat]
      rfl
  · cases after <;> rfl

private theorem indices_subset
    (closed : List.IsChain store.Adjacent (RingNode.anchor :: (heads.map RingNode.head ++ [RingNode.anchor]))) :
    heads.map (·.index.toNat) ⊆ store.linkedSlots := by
  intro index shown
  obtain ⟨handle, within, rfl⟩ := List.mem_map.mp shown
  obtain ⟨before, after, split⟩ := List.append_of_mem within
  obtain ⟨_, links, _, _, held, _⟩ := adjacent_of_closed closed split
  exact mem_linkedSlots_of_head held

private theorem nodup_indices (distinct : heads.Nodup)
    (outer : ∀ handle ∈ heads, ∃ frame, store.arena.find? handle = some frame ∧ frame.isHead) :
    (heads.map (·.index.toNat)).Nodup := by
  have live : ∀ handle ∈ heads, (store.arena.find? handle).isSome = true := fun handle within => by
    obtain ⟨frame, live, _⟩ := outer handle within
    rw [live, Option.isSome_some]
  exact Arena.nodup_indices distinct live

namespace Encircles

private theorem onRing (ring : Encircles store heads) : OnRing store heads := by
  refine ⟨?_, ?_, ?_, ?_, ring.counted⟩
  · intro before member after split
    obtain ⟨_, links, _, _, held, prev⟩ := adjacent_of_closed ring.closed split
    obtain ⟨links', _, held', next, _, _⟩ := adjacent_of_closed ring.closed (show heads = (before ++ [member]) ++ after by simp [split])
    rw [List.getLast?_concat] at held'
    obtain rfl := Option.some.inj (held.symm.trans held')
    have held : store.ringAt (.head member) = some links := held
    rw [ringEnds, held, Option.map_some, RingLinks.ends, prev, next, RingNode.handle?_ofHandle?, RingNode.handle?_ofHandle?]
  · obtain ⟨_, _, held, next, _, _⟩ := adjacent_of_closed ring.closed (List.nil_append heads).symm
    cases held
    rw [next, RingNode.handle?_ofHandle?]
  · obtain ⟨_, _, _, _, held, prev⟩ := adjacent_of_closed ring.closed (List.append_nil heads).symm
    cases held
    rw [prev, RingNode.handle?_ofHandle?]
  · intro handle linked
    obtain ⟨links, held⟩ := Option.isSome_iff_exists.mp linked
    obtain ⟨frame, live, carries⟩ := Option.bind_eq_some_iff.mp held
    have slot := Arena.find?_eq_some_iff.mp live
    obtain ⟨other, within, same⟩ := ring.exclusive _ _ _ slot rfl (by simp [FrozenFrame.isRegistered, carries])
    obtain ⟨_, known, _⟩ := ring.outer other within
    have slot' := Arena.find?_eq_some_iff.mp known
    by_contra apart
    have different : other ≠ handle := fun equal => apart (equal ▸ within)
    rw [same, slot] at slot'
    exact Arena.generation_ne different same (congrArg (·.generation) (Option.some.inj slot')).symm

private theorem linkedSlots_perm (ring : Encircles store heads) :
    store.linkedSlots.Perm (heads.map (·.index.toNat)) := by
  have distinct := nodup_indices ring.distinct ring.outer
  refine (List.perm_ext_iff_of_nodup nodup_linkedSlots distinct).mpr fun index => ⟨fun linked => ?_, ?_⟩
  · obtain ⟨slot, frame, held, content, carries⟩ := mem_linkedSlots.mp linked
    obtain ⟨handle, within, same⟩ := ring.exclusive index slot frame held content carries
    exact List.mem_map.mpr ⟨handle, within, same⟩
  · exact fun shown => indices_subset ring.closed shown

private theorem verify_eq_ok (ring : Encircles store heads) : store.verify = .ok () := by
  refine ring.onRing.verify_eq_ok ring.outer ?_
  rw [countP_linked, ring.linkedSlots_perm.length_eq, List.length_map]

end Encircles

private theorem nodup_of_closed
    (closed : List.IsChain store.Adjacent (RingNode.anchor :: (heads.map RingNode.head ++ [RingNode.anchor]))) :
    heads.Nodup := by
  have unique : ∀ first second member, store.Adjacent first member → store.Adjacent second member →
      first = second := by
    rintro first second member ⟨_, links, _, _, held, rfl⟩ ⟨_, other, _, _, held', rfl⟩
    rw [Option.some.inj (held.symm.trans held')]
  rw [← List.cons_append] at closed
  have distinct := nodup_of_isChain unique closed.left_of_append (fun within => by simp at within)
  exact (List.nodup_cons.mp distinct).2.of_map _

private theorem encircles_of_verify (done : store.verify = .ok ()) : ∃ heads, store.Encircles heads := by
  unfold verify at done
  obtain ⟨⟨forward, last⟩, walked, done⟩ := CallStacks.Failure.bind_eq_ok.mp done
  obtain ⟨closing, done⟩ := guarded_eq_ok.mp done
  obtain ⟨backward, _, done⟩ := CallStacks.Failure.bind_eq_ok.mp done
  obtain ⟨counts, done⟩ := guarded_eq_ok.mp done
  have linked : ¬ store.arena.toList.countP (·.2.isRegistered) ≠ store.registered := by
    intro stray
    rw [if_pos stray] at done
    cases done
  obtain ⟨heads, length, closed, outer⟩ := checkForward_spec walked rfl rfl (not_not.mp closing)
  have counted : store.registered = heads.length := (not_not.mp (not_or.mp counts).1).symm.trans length.symm
  have distinct := nodup_of_closed closed
  refine ⟨heads, distinct, closed, outer, counted, ?_⟩
  -- the heads account for as many slots with links as there are
  have few : store.linkedSlots.length ≤ (heads.map (·.index.toNat)).length := by
    rw [← countP_linked, not_not.mp linked, counted, List.length_map]
  have all := ((nodup_indices distinct outer).subperm (indices_subset closed)).perm_of_length_le few
  intro index slot frame held content carries
  exact List.mem_map.mp (all.mem_iff.mpr (mem_linkedSlots.mpr ⟨slot, frame, held, content, carries⟩))

def Refused (failure : Failure) : Prop := ∃ refusal, failure = .refused refusal

private theorem settles_guard {α : Type} {rest : Except Failure α} {refusal : Refusal} {wrong : Prop} [Decidable wrong]
    (settles : FailsAs Refused rest) :
    FailsAs Refused (if wrong then (throw (.refused refusal) >>= fun _ : Unit => rest) else rest) := by
  split
  · exact .error ⟨refusal, rfl⟩
  · exact settles

private theorem settles_frame (store : Store) (handle : Handle) : FailsAs Refused (store.frame handle) := by
  unfold Store.frame Arena.get
  cases store.arena.find? handle with
  | none => exact .error ⟨_, rfl⟩
  | some frame => exact .ok frame

private theorem settles_links (store : Store) (node : RingNode) : FailsAs Refused (store.links node) := by
  cases node with
  | anchor => exact .ok _
  | head handle =>
    refine (settles_frame store handle).bind fun frame => ?_
    cases frame.ring with
    | none => exact .error ⟨_, rfl⟩
    | some links => exact .ok links

private theorem settles_checkForward (store : Store) (budget : Nat) (before node : RingNode) :
    FailsAs Refused (store.checkForward budget before node) := by
  induction budget generalizing before node with
  | zero =>
    cases node with
    | anchor => exact .ok _
    | head handle =>
      unfold checkForward
      refine (settles_links store _).bind fun links => settles_guard ?_
      exact (settles_frame store handle).bind fun frame => settles_guard (.error ⟨_, rfl⟩)
  | succ budget ih =>
    cases node with
    | anchor => exact .ok _
    | head handle =>
      unfold checkForward
      refine (settles_links store _).bind fun links => settles_guard ?_
      exact (settles_frame store handle).bind fun frame => settles_guard ((ih _ _).bind fun _ => .ok _)

private theorem settles_checkBackward (store : Store) (budget : Nat) (node : RingNode) :
    FailsAs Refused (store.checkBackward budget node) := by
  induction budget generalizing node with
  | zero =>
    cases node with
    | anchor => exact .ok _
    | head handle => exact .error ⟨_, rfl⟩
  | succ budget ih =>
    cases node with
    | anchor => exact .ok _
    | head handle => exact (settles_links store _).bind fun links => (ih _).bind fun _ => .ok _

private theorem settles_verify (store : Store) : FailsAs Refused store.verify := by
  unfold verify
  refine (settles_checkForward store _ _ _).bind fun walked => settles_guard ?_
  refine (settles_checkBackward store _ _).bind fun backward => settles_guard ?_
  dsimp only
  split
  · exact .error ⟨_, rfl⟩
  · exact .ok _

/-- The check of a store in any condition ends with an answer or a refusal, and passes exactly if the store's ring runs
through a list of live heads that are all that carries links. -/
theorem verify_decides (store : Store) :
    (store.verify = .ok () ∨ ∃ refusal, store.verify = .error (.refused refusal)) ∧
      (store.verify = .ok () ↔ ∃ heads, store.Encircles heads) := by
  refine ⟨?_, encircles_of_verify, fun ⟨_, ring⟩ => ring.verify_eq_ok⟩
  cases ran : store.verify with
  | ok => exact .inl rfl
  | error failure =>
    obtain ⟨refusal, rfl⟩ := settles_verify store failure ran
    exact .inr ⟨refusal, rfl⟩

end Store
end CallStacks.Frozen
