import Mathlib.Logic.Relation
import CallStacks.Proofs.Reachability

/-! Links that hold together. Whatever a program has done, callers and callees answer each other, no
chain bites its own tail, and the ring runs through exactly the registered heads, both ways round.
So the check of the ring passes, and every walk along links ends. -/

namespace CallStacks.Frozen
namespace Store

variable {store : Store} {roster : Roster} {heads before after : List Handle} {handle other : Handle}
  {frame : FrozenFrame}

def CalledBy (store : Store) (callee caller : Handle) : Prop :=
  ∃ frame, store.arena.find? callee = some frame ∧ frame.caller = some caller

/-- The two places are neighbours on the ring, seen from either. -/
def Adjacent (store : Store) (first second : RingNode) : Prop :=
  ∃ links other, store.ringAt first = some links ∧ links.next = second ∧
    store.ringAt second = some other ∧ other.prev = first

/-- The ring visits exactly these heads, from the anchor back to the anchor, in both directions. -/
structure Circles (store : Store) (heads : List Handle) : Prop where
  distinct : heads.Nodup
  closed : List.IsChain store.Adjacent (RingNode.anchor :: (heads.map RingNode.head ++ [RingNode.anchor]))
  linked : ∀ handle frame, store.arena.find? handle = some frame →
    (frame.isRegistered ↔ handle ∈ heads)
  outer : ∀ handle ∈ heads, ∃ frame, store.arena.find? handle = some frame ∧ frame.isHead
  counted : store.registered = heads.length

structure WellLinked (store : Store) : Prop where
  caller : ∀ handle frame caller, store.arena.find? handle = some frame → frame.caller = some caller →
    ∃ outer, store.arena.find? caller = some outer ∧ outer.callee = some handle
  callee : ∀ handle frame callee, store.arena.find? handle = some frame → frame.callee = some callee →
    ∃ inner, store.arena.find? callee = some inner ∧ inner.caller = some handle
  acyclic : ∀ handle, ¬ Relation.TransGen store.CalledBy handle handle
  ring : ∃ heads, store.Circles heads

theorem OnRing.checkForward_eq (ring : OnRing store heads) (split : heads = before ++ after)
    (outer : ∀ handle ∈ heads, ∃ frame, store.arena.find? handle = some frame ∧ frame.isHead)
    {budget : Nat} (enough : after.length ≤ budget) :
    store.checkForward budget (.ofHandle? before.getLast?) (.ofHandle? after.head?) =
      .ok (after.length, .ofHandle? heads.getLast?) := by
  induction after generalizing before budget with
  | nil =>
    obtain rfl : heads = before := by simpa using split
    cases budget <;> rfl
  | cons handle rest ih =>
    have look := links_eq_ok.mpr (ring.links_eq split)
    obtain ⟨frame, live, isHead⟩ := outer handle (by simp [split])
    have known := StoreM.frame_eq_ok.mpr live
    cases budget with
    | zero => simp at enough
    | succ budget =>
      have fewer : rest.length ≤ budget := by simpa using enough
      have tail := ih (show heads = (before ++ [handle]) ++ rest by simp [split]) fewer
      rw [List.getLast?_concat] at tail
      change store.checkForward (budget + 1) _ (.head handle) = _
      unfold checkForward
      simp only [look, known, isHead, bind, Except.bind, pure, Except.pure, ne_eq, not_true_eq_false,
        if_false, Bool.not_true, Bool.false_eq_true]
      change (store.checkForward budget (.ofHandle? (some handle)) _ >>= _) = _
      rw [tail]
      rfl

theorem OnRing.checkBackward_eq (ring : OnRing store heads) (split : heads = before ++ after)
    {budget : Nat} (enough : before.length ≤ budget) :
    store.checkBackward budget (.ofHandle? before.getLast?) = .ok before.length := by
  induction budget generalizing before after with
  | zero =>
    obtain rfl := List.eq_nil_of_length_eq_zero (Nat.le_zero.mp enough)
    rfl
  | succ budget ih =>
    rcases List.eq_nil_or_concat before with rfl | ⟨first, handle, rfl⟩
    · rfl
    · have split' : heads = first ++ handle :: after := by simp [split]
      have look := links_eq_ok.mpr (ring.links_eq split')
      have tail := ih split' (by simpa using enough)
      rw [List.concat_eq_append, List.getLast?_concat, List.length_append]
      change store.checkBackward (budget + 1) (.head handle) = _
      unfold checkBackward
      simp only [look, bind, Except.bind, tail]
      rfl

/-- The check passes on a ring of chain heads that are all that carry links. -/
theorem OnRing.verify_eq_ok (ring : OnRing store heads)
    (outer : ∀ handle ∈ heads, ∃ frame, store.arena.find? handle = some frame ∧ frame.isHead)
    (exclusive : store.arena.toList.countP (·.2.isRegistered) = heads.length) : store.verify = .ok () := by
  have forward := ring.checkForward_eq (List.nil_append _).symm outer (Nat.le_refl _)
  have backward := ring.checkBackward_eq (List.append_nil _).symm (Nat.le_refl _)
  rw [← ring.counted] at forward backward
  rw [← ring.anchor_next, ← ring.anchor_prev] at forward
  rw [← ring.anchor_prev] at backward
  have linked := exclusive.trans ring.counted.symm
  simp only [List.getLast?_nil, RingNode.ofHandle?] at forward
  unfold verify
  simp only [forward, backward, linked, bind, Except.bind, pure, Except.pure, ne_eq,
    not_true_eq_false, if_false, or_self]

theorem OnRing.adjacent (ring : OnRing store heads) (split : heads = before ++ after) :
    store.Adjacent (.ofHandle? before.getLast?) (.ofHandle? after.head?) := by
  have first : ∃ links, store.ringAt (.ofHandle? before.getLast?) = some links ∧
      links.next = .ofHandle? after.head? := by
    rcases List.eq_nil_or_concat before with rfl | ⟨start, handle, rfl⟩
    · obtain rfl : heads = after := split
      exact ⟨store.anchor, rfl, ring.anchor_next⟩
    · rw [List.concat_eq_append] at split ⊢
      rw [List.getLast?_concat]
      exact ⟨_, ring.links_eq (show heads = start ++ handle :: after by simp [split]), rfl⟩
  have second : ∃ links, store.ringAt (.ofHandle? after.head?) = some links ∧
      links.prev = .ofHandle? before.getLast? := by
    cases after with
    | nil =>
      obtain rfl : heads = before := by simpa using split
      exact ⟨store.anchor, rfl, ring.anchor_prev⟩
    | cons handle rest => exact ⟨_, ring.links_eq split, rfl⟩
  obtain ⟨links, held, next⟩ := first
  obtain ⟨other, held', prev⟩ := second
  exact ⟨links, other, held, next, held', prev⟩

theorem OnRing.isChain_adjacent (ring : OnRing store heads) (split : heads = before ++ after) :
    List.IsChain store.Adjacent
      (.ofHandle? before.getLast? :: (after.map RingNode.head ++ [RingNode.anchor])) := by
  induction after generalizing before with
  | nil => exact List.isChain_cons_cons.mpr ⟨ring.adjacent split, .singleton _⟩
  | cons handle rest ih =>
    have tail := ih (show heads = (before ++ [handle]) ++ rest by simp [split])
    rw [List.getLast?_concat] at tail
    exact List.isChain_cons_cons.mpr ⟨ring.adjacent split, tail⟩

namespace Represents

private theorem mem_heads_outer (valid : Represents store roster) (member : handle ∈ roster.heads) :
    ∃ frame, store.arena.find? handle = some frame ∧ frame.isHead := by
  obtain ⟨start, led⟩ := mem_heads_iff.mp member
  obtain ⟨frame, live, _, caller⟩ := frame_of_threaded (valid.linked _ (List.mem_append_left _ led))
  exact ⟨frame, live, by simpa [FrozenFrame.isHead] using caller⟩

private theorem countP_linked (valid : Represents store roster) :
    store.arena.toList.countP (·.2.isRegistered) = roster.heads.length := by
  have bounded := valid.sound.bounded
  rw [List.countP_eq_length_filter, ← List.length_map (·.1)]
  apply List.Perm.length_eq
  apply (List.perm_ext_iff_of_nodup ?_ valid.nodup_heads).mpr
  · intro handle
    simp only [List.mem_map, List.mem_filter, Prod.exists, exists_and_right, exists_eq_right,
      Arena.mem_toList bounded]
    constructor
    · rintro ⟨frame, live, linked⟩
      exact (valid.registered_iff live).mp linked
    · intro within
      obtain ⟨frame, live, _⟩ := valid.mem_heads_outer within
      exact ⟨frame, live, (valid.registered_iff live).mpr within⟩
  · exact (Arena.nodup_toList bounded).sublist (List.filter_sublist.map _)

private theorem verify_eq_ok (valid : Represents store roster) : store.verify = .ok () :=
  valid.ring.verify_eq_ok (fun _ member => valid.mem_heads_outer member) valid.countP_linked

private theorem ahead_of_calledBy (valid : Represents store roster) (called : store.CalledBy handle other) :
    ∃ chain ∈ roster.chains, handle ∈ chain ∧ other ∈ chain ∧ chain.idxOf handle < chain.idxOf other := by
  obtain ⟨frame, live, caller⟩ := called
  obtain ⟨before, after, member, _, ends⟩ := valid.place live
  rw [ends] at caller
  obtain ⟨rest, rfl⟩ := List.head?_eq_some_iff.mp caller
  have distinct := valid.chain_distinct member
  refine ⟨_, member, by simp, by simp, ?_⟩
  have apart := List.nodup_append.mp distinct
  have fresh : handle ∉ before := fun within => apart.2.2 _ within _ (by simp) rfl
  have fresh' : other ∉ before := fun within => apart.2.2 _ within _ (by simp) rfl
  have different : handle ≠ other := by
    rintro rfl
    simp at apart
  rw [List.idxOf_append_of_notMem fresh, List.idxOf_append_of_notMem fresh', List.idxOf_cons_self,
    List.idxOf_cons_ne _ different]
  omega

private theorem acyclic (valid : Represents store roster) : ¬ Relation.TransGen store.CalledBy handle handle := by
  intro circle
  have ahead : ∀ {first last}, Relation.TransGen store.CalledBy first last →
      ∃ chain ∈ roster.chains, first ∈ chain ∧ last ∈ chain ∧ chain.idxOf first < chain.idxOf last := by
    intro first last path
    induction path with
    | single called => exact valid.ahead_of_calledBy called
    | tail _ called ih =>
      obtain ⟨chain, member, inside, middle, less⟩ := ih
      obtain ⟨chain', member', middle', inside', less'⟩ := valid.ahead_of_calledBy called
      obtain rfl := eq_of_shared valid.distinct member member' middle middle'
      exact ⟨chain, member, inside, inside', Nat.lt_trans less less'⟩
  obtain ⟨_, _, _, _, less⟩ := ahead circle
  exact Nat.lt_irrefl _ less

private theorem circles (valid : Represents store roster) : store.Circles roster.heads := by
  refine ⟨valid.nodup_heads, ?_, fun handle frame live => valid.registered_iff live,
    fun _ member => valid.mem_heads_outer member, valid.ring.counted⟩
  exact valid.ring.isChain_adjacent (List.nil_append _).symm

private theorem links_hold (valid : Represents store roster) : store.WellLinked := by
  refine ⟨?_, ?_, fun _ => valid.acyclic, _, valid.circles⟩
  · intro handle frame caller live called
    obtain ⟨before, after, member, _, ends⟩ := valid.place live
    rw [ends] at called
    obtain ⟨rest, rfl⟩ := List.head?_eq_some_iff.mp called
    have part : (before ++ [handle]) ++ caller :: rest ∈ roster.chains := by simpa using member
    obtain ⟨outer, found, callee, _⟩ := frame_of_threaded (valid.linked _ part)
    exact ⟨outer, found, by simpa using callee⟩
  · intro handle frame callee live calls
    obtain ⟨before, after, member, ends, _⟩ := valid.place live
    rw [ends] at calls
    obtain ⟨first, rfl⟩ := List.getLast?_eq_some_iff.mp calls
    have part : first ++ callee :: handle :: after ∈ roster.chains := by simpa using member
    obtain ⟨inner, found, _, caller⟩ := frame_of_threaded (valid.linked _ part)
    exact ⟨inner, found, by simpa using caller⟩

theorem walks_end (valid : Represents store roster) (live : store.arena.find? handle = some frame) :
    (∃ head, store.chainHead handle = .ok head) ∧
      (∃ members, store.chainMembers handle = .ok members) ∧
      ∃ floor, store.chainFloor handle = .ok floor := by
  obtain ⟨before, after, member, _⟩ := valid.place live
  have threaded := valid.linked _ member
  have distinct := valid.chain_distinct member
  obtain ⟨floor, found, _⟩ := chainFloor_eq threaded distinct
  exact ⟨⟨_, chainHead_eq threaded distinct⟩, ⟨_, chainMembers_eq threaded distinct⟩, floor, found⟩

end Represents

theorem walks_of_stale (stale : store.arena.find? handle = none) :
    store.chainHead handle = .error (.refused (.stale handle)) ∧
      store.chainMembers handle = .error (.refused (.stale handle)) ∧
      store.chainFloor handle = .error (.refused (.stale handle)) := by
  have missing := StoreM.frame_of_stale stale
  have stuck : ∀ link, store.path link handle = .error (.refused (.stale handle)) := by
    intro link
    unfold path pathWithin
    rw [missing]
    rfl
  refine ⟨?_, ?_, ?_⟩
  · rw [chainHead, stuck]
    rfl
  · rw [chainMembers, stuck]
    rfl
  · rw [chainFloor, missing]
    rfl

end Store

namespace Freezer

variable {freezer : Freezer}

/-- Whatever a program has done, all links hold together. The check of the ring passes, and every
walk along links ends: with an answer, or because its start is stale. -/
theorem Reachable.wellLinked (reachable : Reachable freezer) :
    freezer.store.WellLinked ∧ freezer.verify = .ok () ∧
      (∃ heads, freezer.store.heads = .ok heads ∧ freezer.store.Circles heads) ∧
      ∀ handle, match freezer.store.arena.find? handle with
        | some _ =>
          (∃ head, freezer.chainHead handle = .ok head) ∧
            (∃ members, freezer.chainMembers handle = .ok members) ∧
            ∃ floor, freezer.store.chainFloor handle = .ok floor
        | none =>
          freezer.chainHead handle = .error (.refused (.stale handle)) ∧
            freezer.chainMembers handle = .error (.refused (.stale handle)) ∧
            freezer.store.chainFloor handle = .error (.refused (.stale handle)) := by
  obtain ⟨roster, _, valid⟩ := reachable.history
  have represents := valid.toRepresents
  refine ⟨represents.links_hold, represents.verify_eq_ok, ⟨_, represents.heads_eq, represents.circles⟩, ?_⟩
  intro handle
  cases known : freezer.store.arena.find? handle with
  | none => exact Store.walks_of_stale known
  | some frame => exact represents.walks_end known

theorem Reachable.wellLinked_sample : Reachable sample ∧ sample.store.registered = 1 ∧
    sample.store.arena.count = 3 ∧ sample.store.WellLinked ∧ sample.verify = .ok () := by
  have linked := reachable_sample.wellLinked
  exact ⟨reachable_sample, by decide +kernel, by decide +kernel, linked.1, linked.2.1⟩

end Freezer
end CallStacks.Frozen
