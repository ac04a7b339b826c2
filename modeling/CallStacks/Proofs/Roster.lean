import CallStacks.Frozen.Store.Ring
import CallStacks.Proofs.ArenaContents
import CallStacks.Proofs.StoreRuns
import CallStacks.Proofs.Threads

/-! The store as a roster of chains. A roster says which chains exist and which of them are
registered, as plain lists of handles. A store represents a roster when its links, its ring and its
arena say the same, and then every walk along links reads off a part of one of these lists. -/

namespace CallStacks.Frozen

/-- The suspended chains, each from its innermost frame to its head. -/
structure Roster where
  /-- The chains a collector sees, the last registered first. -/
  registered : List (List Handle) := []
  hidden : List (List Handle) := []

namespace Roster

def chains (roster : Roster) : List (List Handle) := roster.registered ++ roster.hidden

def members (roster : Roster) : List Handle := roster.chains.flatten

def heads (roster : Roster) : List Handle := roster.registered.filterMap List.getLast?

end Roster

namespace RingNode

def handle? : RingNode → Option Handle
  | anchor => none
  | head handle => some handle

def ofHandle? : Option Handle → RingNode
  | none => anchor
  | some handle => head handle

@[simp] theorem handle?_anchor : anchor.handle? = none := rfl

@[simp] theorem handle?_head (handle : Handle) : (head handle).handle? = some handle := rfl

@[simp] theorem handle?_ofHandle? (handle : Option Handle) : (ofHandle? handle).handle? = handle := by
  cases handle <;> rfl

@[simp] theorem ofHandle?_handle? (node : RingNode) : ofHandle? node.handle? = node := by
  cases node <;> rfl

theorem ofHandle?_eq_head_iff {other : Option Handle} {handle : Handle} :
    ofHandle? other = head handle ↔ other = some handle := by
  cases other <;> simp [ofHandle?]

theorem ofHandle?_eq_anchor_iff {other : Option Handle} : ofHandle? other = anchor ↔ other = none := by
  cases other <;> simp [ofHandle?]

end RingNode

def RingLinks.ends (links : RingLinks) : Ends := ⟨links.prev.handle?, links.next.handle?⟩

namespace Store

variable {store : Store} {roster : Roster} {chain before after : List Handle} {handle : Handle}

def chainEnds (store : Store) (handle : Handle) : Option Ends :=
  (store.arena.find? handle).map fun frame => ⟨frame.callee, frame.caller⟩

def ringAt (store : Store) : RingNode → Option RingLinks
  | .anchor => some store.anchor
  | .head handle => (store.arena.find? handle).bind (·.ring)

def ringEnds (store : Store) (handle : Handle) : Option Ends :=
  (store.ringAt (.head handle)).map RingLinks.ends

/-- The ring holds exactly these heads, in this order. -/
structure OnRing (store : Store) (heads : List Handle) : Prop where
  threaded : Threaded store.ringEnds heads
  first : store.anchor.next.handle? = heads.head?
  last : store.anchor.prev.handle? = heads.getLast?
  closed : ∀ handle, (store.ringAt (.head handle)).isSome → handle ∈ heads
  counted : store.registered = heads.length

structure Represents (store : Store) (roster : Roster) : Prop where
  sound : store.arena.Sound
  distinct : roster.members.Nodup
  inhabited : ∀ chain ∈ roster.chains, chain ≠ []
  live : ∀ handle, handle ∈ roster.members ↔ (store.arena.find? handle).isSome
  linked : ∀ chain ∈ roster.chains, Threaded store.chainEnds chain
  ring : OnRing store roster.heads

def listing (store : Store) (handles : List Handle) : List (Handle × FrozenFrame) :=
  handles.filterMap fun handle => (store.arena.find? handle).map (handle, ·)

def floor? (store : Store) (handle : Handle) : Option Generation :=
  (store.arena.find? handle).map (·.floor)

def floors (store : Store) (handles : List Handle) : List Generation :=
  handles.filterMap store.floor?

theorem floor?_of_frame {frame : FrozenFrame} (live : store.arena.find? handle = some frame) :
    store.floor? handle = some frame.floor := by
  rw [floor?, live]
  rfl

theorem mem_floors {handles : List Handle} {floor : Generation} : floor ∈ store.floors handles ↔
    ∃ handle ∈ handles, ∃ frame, store.arena.find? handle = some frame ∧ frame.floor = floor := by
  simp only [floors, floor?, List.mem_filterMap, Option.map_eq_some_iff]

theorem floors_eq_map (handles : List Handle) :
    store.floors handles = (store.listing handles).map (·.2.floor) := by
  simp only [floors, listing, List.map_filterMap, Option.map_map, Function.comp_def]
  rfl

theorem listing_cons_of_live {frame : FrozenFrame} (live : store.arena.find? handle = some frame)
    (rest : List Handle) : store.listing (handle :: rest) = (handle, frame) :: store.listing rest := by
  simp [listing, live]

theorem map_listing {handles : List Handle}
    (live : ∀ handle ∈ handles, (store.arena.find? handle).isSome) :
    (store.listing handles).map (·.1) = handles := by
  induction handles with
  | nil => rfl
  | cons handle rest ih =>
    obtain ⟨frame, found⟩ := Option.isSome_iff_exists.mp (live handle (by simp))
    rw [listing_cons_of_live found, List.map_cons, ih fun other within => live other (by simp [within])]

/-- Following a link reads off the list whose links the frames carry. -/
theorem pathWithin_eq {link : FrozenFrame → Option Handle} {rest : List Handle} {budget : Nat}
    (linked : ∀ first member last, handle :: rest = first ++ member :: last →
      ∃ frame, store.arena.find? member = some frame ∧ link frame = last.head?)
    (enough : rest.length ≤ budget) :
    store.pathWithin link budget handle = .ok (store.listing (handle :: rest)) := by
  induction rest generalizing handle budget with
  | nil =>
    obtain ⟨frame, live, stop⟩ := linked [] handle [] rfl
    have known := StoreM.frame_eq_ok.mpr live
    unfold pathWithin
    simp only [known, bind, Except.bind, stop, List.head?_nil, listing_cons_of_live live]
    rfl
  | cons next others ih =>
    obtain ⟨frame, live, step⟩ := linked [] handle (next :: others) rfl
    have known := StoreM.frame_eq_ok.mpr live
    cases budget with
    | zero => simp at enough
    | succ budget =>
      have tail : store.pathWithin link budget next = .ok (store.listing (next :: others)) :=
        ih (fun first member last split => linked (handle :: first) member last (by simp [split]))
          (by simpa using enough)
      unfold pathWithin
      simp only [known, bind, Except.bind, step, List.head?_cons, tail,
        listing_cons_of_live live (next :: others)]
      rfl

theorem live_of_path {link : FrozenFrame → Option Handle} {answer : List (Handle × FrozenFrame)}
    (done : store.path link handle = .ok answer) :
    ∃ frame, store.arena.find? handle = some frame := by
  unfold path pathWithin at done
  obtain ⟨frame, known, _⟩ := CallStacks.Failure.bind_eq_ok.mp done
  exact ⟨frame, StoreM.frame_eq_ok.mp known⟩

theorem live_of_chainMembers {members : List Handle} (done : store.chainMembers handle = .ok members) :
    ∃ frame, store.arena.find? handle = some frame := by
  obtain ⟨path, walked, _⟩ := CallStacks.Failure.bind_eq_ok.mp done
  exact live_of_path walked

section Threaded

variable (threaded : Threaded store.chainEnds (before ++ handle :: after))
  (distinct : (before ++ handle :: after).Nodup)

include threaded

theorem frame_of_threaded : ∃ frame, store.arena.find? handle = some frame ∧
    frame.callee = before.getLast? ∧ frame.caller = after.head? := by
  obtain ⟨frame, live, known⟩ := Option.map_eq_some_iff.mp (threaded before handle after rfl)
  simp only [Ends.mk.injEq] at known
  exact ⟨frame, live, known⟩

theorem live_of_threaded {other : Handle} (within : other ∈ before ++ handle :: after) :
    (store.arena.find? other).isSome := by
  obtain ⟨first, last, split⟩ := List.append_of_mem within
  have known := threaded first other last split
  simp only [chainEnds, Option.map_eq_some_iff] at known
  obtain ⟨frame, live, _⟩ := known
  simp [live]

include distinct

private theorem threaded_short : before.length + after.length < store.arena.slots.size := by
  have short := Arena.length_le_size distinct fun other within => live_of_threaded threaded within
  simp only [List.length_append, List.length_cons] at short
  omega

theorem path_caller : store.path (·.caller) handle = .ok (store.listing (handle :: after)) := by
  apply pathWithin_eq
  · intro first other last split
    have within : before ++ handle :: after = (before ++ first) ++ other :: last := by
      rw [List.append_assoc, ← split]
    obtain ⟨frame, live, _, caller⟩ := frame_of_threaded (within ▸ threaded)
    exact ⟨frame, live, caller⟩
  · have short := threaded_short threaded distinct
    omega

theorem path_callee : store.path (·.callee) handle = .ok (store.listing (handle :: before.reverse)) := by
  apply pathWithin_eq
  · intro first other last split
    have turned : before ++ [handle] = last.reverse ++ other :: first.reverse := by
      have reversed := congrArg List.reverse split
      simpa using reversed
    have within : before ++ handle :: after = last.reverse ++ other :: (first.reverse ++ after) := by
      rw [← List.singleton_append, ← List.append_assoc, turned]
      simp
    obtain ⟨frame, live, callee, _⟩ := frame_of_threaded (within ▸ threaded)
    exact ⟨frame, live, by simpa using callee⟩
  · have short := threaded_short threaded distinct
    rw [List.length_reverse]
    omega

theorem chainHead_eq : store.chainHead handle = .ok (after.getLast?.getD handle) := by
  have names : (store.listing (handle :: after)).map (·.1) = handle :: after :=
    map_listing fun other within => live_of_threaded threaded (List.mem_append_right _ within)
  simp only [chainHead, path_caller threaded distinct, bind, Except.bind, pure, Except.pure]
  rw [← List.getLast?_map, names, List.getLast?_cons]
  rfl

theorem chainMembers_eq : store.chainMembers handle = .ok (handle :: before.reverse) := by
  have names : (store.listing (handle :: before.reverse)).map (·.1) = handle :: before.reverse := by
    apply map_listing
    intro other within
    apply live_of_threaded threaded
    simp only [List.mem_cons, List.mem_reverse] at within
    rcases within with rfl | within
    · simp
    · exact List.mem_append_left _ within
  simp only [chainMembers, path_callee threaded distinct, bind, Except.bind, pure, Except.pure, names]

theorem chainFloor_eq : ∃ floor, store.chainFloor handle = .ok floor ∧
    (store.floors (before ++ [handle])).min? = some floor := by
  obtain ⟨frame, live, _⟩ := frame_of_threaded threaded
  refine ⟨(store.listing (handle :: before.reverse)).foldl
    (fun floor other => min floor other.2.floor) frame.floor, ?_, ?_⟩
  · simp only [chainFloor, StoreM.frame_eq_ok.mpr live, path_callee threaded distinct, bind, Except.bind,
      pure, Except.pure]
  · have lowest : (store.floors (handle :: before.reverse)).min? =
        some ((store.listing (handle :: before.reverse)).foldl
          (fun floor other => min floor other.2.floor) frame.floor) := by
      rw [floors_eq_map, listing_cons_of_live live, List.map_cons, List.min?_cons', List.foldl_cons,
        List.foldl_map, Int.min_self]
    rw [List.min?_eq_some_iff] at lowest ⊢
    simp only [mem_floors, List.mem_append, List.mem_cons, List.mem_reverse, List.not_mem_nil, false_or,
      or_comm] at lowest ⊢
    exact lowest

end Threaded

namespace Represents

theorem chain_distinct (valid : Represents store roster) (member : chain ∈ roster.chains) :
    chain.Nodup :=
  (List.pairwise_flatten.mp valid.distinct).1 chain member

theorem live_of_mem (valid : Represents store roster) (member : chain ∈ roster.chains)
    (within : handle ∈ chain) : (store.arena.find? handle).isSome :=
  (valid.live handle).mp (List.mem_flatten.mpr ⟨chain, member, within⟩)

theorem place {frame : FrozenFrame} (valid : Represents store roster)
    (live : store.arena.find? handle = some frame) :
    ∃ before after, before ++ handle :: after ∈ roster.chains ∧
      frame.callee = before.getLast? ∧ frame.caller = after.head? := by
  have within := (valid.live handle).mpr (by simp [live])
  obtain ⟨chain, member, inside⟩ := List.mem_flatten.mp within
  obtain ⟨before, after, rfl⟩ := List.append_of_mem inside
  obtain ⟨found, known, ends⟩ := frame_of_threaded (valid.linked _ member)
  obtain rfl : frame = found := Option.some.inj (live.symm.trans known)
  exact ⟨before, after, member, ends⟩

theorem chainHead_of_member (valid : Represents store roster) (member : chain ∈ roster.chains)
    (within : handle ∈ chain) : ∃ inner head, chain = inner ++ [head] ∧ store.chainHead handle = .ok head := by
  obtain ⟨before, after, rfl⟩ := List.append_of_mem within
  have led := chainHead_eq (valid.linked _ member) (valid.chain_distinct member)
  obtain ⟨inner, split⟩ : ∃ inner, before ++ handle :: after = inner ++ [after.getLast?.getD handle] := by
    apply List.getLast?_eq_some_iff.mp
    rw [List.getLast?_append, List.getLast?_cons, Option.some_or]
  exact ⟨inner, _, split, led⟩

theorem chain_of_chainHead {head : Handle} (valid : Represents store roster)
    (led : store.chainHead handle = .ok head) :
    ∃ before, before ++ [head] ∈ roster.chains ∧ handle ∈ before ++ [head] := by
  obtain ⟨path, walked, _⟩ := CallStacks.Failure.bind_eq_ok.mp led
  obtain ⟨frame, live⟩ := live_of_path walked
  obtain ⟨before, above, member, _⟩ := valid.place live
  have within : handle ∈ before ++ handle :: above := by simp
  obtain ⟨inner, last, split, known⟩ := valid.chainHead_of_member member within
  obtain rfl : head = last := Except.ok.inj (led.symm.trans known)
  rw [split] at member within
  exact ⟨inner, member, within⟩

theorem chain_of_chainMembers {head : Handle} {members : List Handle} (valid : Represents store roster)
    (listed : store.chainMembers head = .ok members) :
    ∃ before above, before ++ head :: above ∈ roster.chains ∧ members.reverse = before ++ [head] := by
  obtain ⟨frame, live⟩ := live_of_chainMembers listed
  obtain ⟨before, above, member, _⟩ := valid.place live
  rw [chainMembers_eq (valid.linked _ member) (valid.chain_distinct member)] at listed
  cases listed
  exact ⟨before, above, member, by simp⟩

theorem live_of_member {head : Handle} {members : List Handle} (valid : Represents store roster)
    (listed : store.chainMembers head = .ok members) (within : handle ∈ members) :
    (store.arena.find? handle).isSome := by
  obtain ⟨before, above, member, turned⟩ := valid.chain_of_chainMembers listed
  have inside : handle ∈ before ++ [head] := turned ▸ List.mem_reverse.mpr within
  have part : (before ++ [head]) ++ above = before ++ head :: above := by simp
  exact valid.live_of_mem member (part ▸ List.mem_append_left above inside)

theorem length_le_slots (valid : Represents store roster) {handles : List Handle}
    (distinct : handles.Nodup) (within : handles ⊆ roster.members) :
    handles.length ≤ store.arena.slots.size :=
  Arena.length_le_size distinct fun handle member => (valid.live handle).mp (within member)

end Represents

theorem links_eq_ok {node : RingNode} {links : RingLinks} :
    store.links node = .ok links ↔ store.ringAt node = some links := by
  cases node with
  | anchor => simp [Store.links, ringAt]
  | head handle =>
    cases live : store.arena.find? handle with
    | none => simp [Store.links, StoreM.frame_of_stale live, ringAt, live, bind, Except.bind]
    | some frame =>
      simp only [Store.links, StoreM.frame_eq_ok.mpr live, ringAt, live, bind, Except.bind,
        Option.bind_some]
      cases frame.ring <;> simp [CallStacks.Failure.ofOption]

theorem OnRing.links_eq {heads : List Handle} (ring : OnRing store heads)
    (split : heads = before ++ handle :: after) :
    store.ringAt (.head handle) =
      some { next := .ofHandle? after.head?, prev := .ofHandle? before.getLast? } := by
  obtain ⟨links, held, ends⟩ := Option.map_eq_some_iff.mp (ring.threaded before handle after split)
  simp only [RingLinks.ends, Ends.mk.injEq] at ends
  rw [held, ← ends.1, ← ends.2, RingNode.ofHandle?_handle?, RingNode.ofHandle?_handle?]

/-- Going round from a head reads off the rest of the ring. -/
theorem OnRing.headsWithin_eq {heads : List Handle} (ring : OnRing store heads)
    (split : heads = before ++ after) {budget : Nat} (enough : after.length ≤ budget) :
    store.headsWithin budget (.ofHandle? after.head?) = .ok after := by
  induction after generalizing before budget with
  | nil => cases budget <;> rfl
  | cons handle rest ih =>
    have look := links_eq_ok.mpr (ring.links_eq split)
    cases budget with
    | zero => simp at enough
    | succ budget =>
      have tail : store.headsWithin budget (.ofHandle? rest.head?) = .ok rest :=
        ih (show heads = (before ++ [handle]) ++ rest by simp [split]) (by simpa using enough)
      change store.headsWithin (budget + 1) (.head handle) = _
      simp only [headsWithin, look, CallStacks.Failure.mapError_ok, bind, Except.bind, tail]
      rfl

theorem OnRing.anchor_next {heads : List Handle} (ring : OnRing store heads) :
    store.anchor.next = .ofHandle? heads.head? := by
  rw [← ring.first, RingNode.ofHandle?_handle?]

theorem OnRing.anchor_prev {heads : List Handle} (ring : OnRing store heads) :
    store.anchor.prev = .ofHandle? heads.getLast? := by
  rw [← ring.last, RingNode.ofHandle?_handle?]

namespace Represents

theorem mem_heads_iff : handle ∈ roster.heads ↔
    ∃ before, before ++ [handle] ∈ roster.registered := by
  simp only [Roster.heads, List.mem_filterMap, List.getLast?_eq_some_iff]
  constructor
  · rintro ⟨chain, member, before, rfl⟩
    exact ⟨before, member⟩
  · rintro ⟨before, member⟩
    exact ⟨_, member, before, rfl⟩

theorem nodup_heads (valid : Represents store roster) : roster.heads.Nodup := by
  have apart := (List.pairwise_flatten.mp valid.distinct).2
  have apart := (List.pairwise_append.mp apart).1
  apply List.pairwise_filterMap.mpr
  apply apart.imp
  intro chain other different head last head' last'
  exact different head (List.mem_of_getLast? last) head' (List.mem_of_getLast? last')

theorem heads_subset : roster.heads ⊆ roster.members := by
  intro handle member
  obtain ⟨before, member⟩ := mem_heads_iff.mp member
  exact List.mem_flatten.mpr ⟨_, List.mem_append_left _ member, by simp⟩

theorem heads_eq (valid : Represents store roster) : store.heads = .ok roster.heads := by
  unfold heads
  rw [valid.ring.anchor_next]
  exact valid.ring.headsWithin_eq (List.nil_append _).symm
    (valid.length_le_slots valid.nodup_heads heads_subset)

end Represents
end Store
end CallStacks.Frozen
