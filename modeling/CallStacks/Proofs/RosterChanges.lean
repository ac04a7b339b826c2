import Mathlib.Data.List.Nodup
import CallStacks.Proofs.Roster
import CallStacks.Proofs.StoreFrames

/-! Changes of a roster. Registering moves a chain to the front of the registered ones, and a frame
that leaves is taken out of its chain, which keeps its place. -/

namespace CallStacks.Frozen

def ledBy (head : Handle) (chain : List Handle) : Bool := chain.getLast? = some head

/-- The chains without some of their members; a chain that loses all of them is gone. -/
def thinned (gone : List Handle) (chains : List (List Handle)) : List (List Handle) :=
  (chains.map (·.filter (· ∉ gone))).filter (· ≠ [])

section Lists

variable {chains others : List (List Handle)} {chain before after gone : List Handle}
  {handle head : Handle}

theorem mem_thinned : chain ∈ thinned gone chains ↔
    chain ≠ [] ∧ ∃ whole ∈ chains, whole.filter (· ∉ gone) = chain := by
  simp only [thinned, List.mem_filter, List.mem_map, decide_eq_true_eq]
  exact and_comm

theorem flatten_thinned : (thinned gone chains).flatten = chains.flatten.filter (· ∉ gone) := by
  rw [thinned, List.flatten_filter_ne_nil, List.filter_flatten]

theorem thinned_append : thinned gone (chains ++ others) = thinned gone chains ++ thinned gone others := by
  simp [thinned]

theorem filter_apart_all (apart : ∀ member ∈ chain, member ∉ gone) : chain.filter (· ∉ gone) = chain :=
  List.filter_eq_self.mpr fun member within => by simpa using apart member within

theorem filter_apart (apart : handle ∉ chain) : chain.filter (· ∉ [handle]) = chain :=
  filter_apart_all fun other within => by simpa using fun same : other = handle => apart (same ▸ within)

theorem thinned_of_apart (inhabited : ∀ chain ∈ chains, chain ≠ [])
    (apart : ∀ chain ∈ chains, ∀ member ∈ chain, member ∉ gone) : thinned gone chains = chains := by
  induction chains with
  | nil => rfl
  | cons chain rest ih =>
    have whole := filter_apart_all (apart chain (by simp))
    have tail := ih (fun other member => inhabited other (by simp [member]))
      (fun other member => apart other (by simp [member]))
    rw [thinned] at tail ⊢
    rw [List.map_cons, whole, List.filter_cons_of_pos (by simpa using inhabited chain (by simp)), tail]

theorem filter_gap (fresh : handle ∉ before ++ after) :
    (before ++ handle :: after).filter (· ∉ [handle]) = before ++ after := by
  simp only [List.mem_append, not_or] at fresh
  rw [List.filter_append, List.filter_cons_of_neg (by simp), filter_apart fresh.1, filter_apart fresh.2]

theorem filter_front (distinct : (gone ++ chain).Nodup) : (gone ++ chain).filter (· ∉ gone) = chain := by
  have apart := (List.nodup_append.mp distinct).2.2
  have none : gone.filter (· ∉ gone) = [] := by simp
  rw [List.filter_append, none, filter_apart_all fun handle within early => apart handle early handle within rfl,
    List.nil_append]

theorem thinned_thinned {more : List Handle} :
    thinned more (thinned gone chains) = thinned (gone ++ more) chains := by
  induction chains with
  | nil => rfl
  | cons chain rest ih =>
    have twice : (chain.filter (· ∉ gone)).filter (· ∉ more) = chain.filter (· ∉ gone ++ more) := by
      rw [List.filter_filter]
      congr 1
      funext member
      by_cases early : member ∈ gone <;> by_cases late : member ∈ more <;> simp [early, late]
    simp only [thinned] at ih ⊢
    rw [List.map_cons, List.map_cons, ← twice]
    by_cases empty : chain.filter (· ∉ gone) = []
    · rw [List.filter_cons_of_neg (by simp only [empty]; simp), ih, empty]
      rfl
    · rw [List.filter_cons_of_pos (by simpa using empty), List.map_cons, List.filter_cons, ih, List.filter_cons]

theorem apart_of_split {first last : List (List Handle)}
    (distinct : (first ++ chain :: last).flatten.Nodup) :
    ∀ other, other ∈ first ∨ other ∈ last → ∀ member ∈ other, member ∉ chain := by
  have apart := (List.nodup_flatten.mp distinct).2
  simp only [List.pairwise_append, List.pairwise_cons, List.mem_cons] at apart
  intro other within member inside also
  rcases within with within | within
  · exact apart.2.2 other within chain (.inl rfl) inside also
  · exact apart.2.1.1 other within also inside

theorem eq_of_shared (distinct : chains.flatten.Nodup) {other : List Handle} (member : chain ∈ chains)
    (member' : other ∈ chains) (inside : handle ∈ chain) (inside' : handle ∈ other) : chain = other := by
  obtain ⟨first, last, rfl⟩ := List.append_of_mem member
  have apart := apart_of_split distinct other
  simp only [List.mem_append, List.mem_cons] at member'
  rcases member' with within | rfl | within
  · exact absurd inside (apart (.inl within) handle inside')
  · rfl
  · exact absurd inside (apart (.inr within) handle inside')

theorem not_ledBy_of_split {first last : List (List Handle)}
    (distinct : (first ++ (before ++ [head]) :: last).flatten.Nodup) :
    ∀ other, other ∈ first ∨ other ∈ last → ledBy head other = false := by
  intro other within
  by_contra led
  simp only [Bool.not_eq_false, ledBy, decide_eq_true_eq] at led
  exact apart_of_split distinct other within head (List.mem_of_getLast? led) (by simp)

theorem filter_ledBy (distinct : chains.flatten.Nodup) (member : before ++ [head] ∈ chains) :
    chains.filter (ledBy head) = [before ++ [head]] := by
  obtain ⟨first, last, rfl⟩ := List.append_of_mem member
  have no := not_ledBy_of_split distinct
  rw [List.filter_append, List.filter_cons_of_pos (by simp [ledBy]),
    List.filter_eq_nil_iff.mpr fun chain within => by simp [no chain (.inl within)],
    List.filter_eq_nil_iff.mpr fun chain within => by simp [no chain (.inr within)]]
  rfl

theorem filter_not_ledBy {first last : List (List Handle)}
    (distinct : (first ++ (before ++ [head]) :: last).flatten.Nodup) :
    (first ++ (before ++ [head]) :: last).filter (!ledBy head ·) = first ++ last := by
  have no := not_ledBy_of_split distinct
  rw [List.filter_append, List.filter_cons_of_neg (by simp [ledBy]),
    List.filter_eq_self.mpr fun chain within => by simp [no chain (.inl within)],
    List.filter_eq_self.mpr fun chain within => by simp [no chain (.inr within)]]

/-- What stands for a chain among the chains once it may have lost its frames. -/
def remnant (chain : List Handle) : List (List Handle) := if chain = [] then [] else [chain]

theorem thinned_of_split {first last : List (List Handle)} (distinct : (first ++ chain :: last).flatten.Nodup)
    (inhabited : ∀ other ∈ first ++ chain :: last, other ≠ []) (within : ∀ member ∈ gone, member ∈ chain) :
    thinned gone (first ++ chain :: last) = first ++ remnant (chain.filter (· ∉ gone)) ++ last := by
  have other := apart_of_split distinct
  have ahead : thinned gone first = first := thinned_of_apart (fun chain member => inhabited chain (by simp [member]))
    fun chain member inner inside leaves => other chain (.inl member) inner inside (within inner leaves)
  have behind : thinned gone last = last := thinned_of_apart (fun chain member => inhabited chain (by simp [member]))
    fun chain member inner inside leaves => other chain (.inr member) inner inside (within inner leaves)
  have here : thinned gone [chain] = remnant (chain.filter (· ∉ gone)) := by
    rw [thinned, List.map_singleton, remnant]
    cases chain.filter (· ∉ gone) <;> rfl
  rw [← List.singleton_append (l := last), thinned_append, thinned_append, ahead, behind, here, List.append_assoc]

end Lists

namespace Roster

/-- A new chain, not registered. Nothing is added if no frame was captured. -/
def add (roster : Roster) (chain : List Handle) : Roster :=
  { roster with hidden := if chain = [] then roster.hidden else chain :: roster.hidden }

def reveal (roster : Roster) (head : Handle) : Roster :=
  { registered := roster.hidden.filter (ledBy head) ++ roster.registered
    hidden := roster.hidden.filter (!ledBy head ·) }

def conceal (roster : Roster) (head : Handle) : Roster :=
  { registered := roster.registered.filter (!ledBy head ·)
    hidden := roster.registered.filter (ledBy head) ++ roster.hidden }

def without (roster : Roster) (gone : List Handle) : Roster :=
  { registered := thinned gone roster.registered
    hidden := thinned gone roster.hidden }

variable {roster : Roster} {chain before after gone : List Handle} {handle head : Handle}

theorem chains_without : (roster.without gone).chains = thinned gone roster.chains := by
  simp only [chains, without, thinned_append]

theorem without_without {more : List Handle} :
    (roster.without gone).without more = roster.without (gone ++ more) := by
  simp only [without, thinned_thinned]

theorem members_without : (roster.without gone).members = roster.members.filter (· ∉ gone) := by
  rw [members, chains_without, flatten_thinned, members]

theorem members_add (roster : Roster) (chain : List Handle) :
    (roster.add chain).members.Perm (chain ++ roster.members) := by
  unfold members chains add
  split
  next none => rw [none, List.nil_append]
  next =>
    have moved : (roster.registered ++ chain :: roster.hidden).Perm (chain :: (roster.registered ++ roster.hidden)) :=
      List.perm_middle
    simpa using moved.flatten

theorem mem_chains_add : chain ∈ (roster.add after).chains ↔
    (chain = after ∧ after ≠ []) ∨ chain ∈ roster.chains := by
  unfold chains add
  by_cases none : after = [] <;> simp [none, or_left_comm]

theorem chains_reveal (roster : Roster) (head : Handle) :
    (roster.reveal head).chains.Perm roster.chains := by
  have moved : (roster.hidden.filter (ledBy head) ++ roster.hidden.filter (!ledBy head ·)).Perm
      roster.hidden := List.filter_append_perm _ _
  simp only [chains, reveal]
  refine List.Perm.trans ?_ (List.Perm.append_left _ moved)
  rw [List.append_assoc, ← List.append_assoc roster.registered, ← List.append_assoc]
  exact List.Perm.append_right _ List.perm_append_comm

theorem chains_conceal (roster : Roster) (head : Handle) :
    (roster.conceal head).chains.Perm roster.chains := by
  have moved : (roster.registered.filter (!ledBy head ·) ++ roster.registered.filter (ledBy head)).Perm
      roster.registered :=
    List.perm_append_comm.trans (List.filter_append_perm _ _)
  simp only [chains, conceal, ← List.append_assoc]
  exact List.Perm.append_right _ moved

theorem heads_eq_of_split {first last : List (List Handle)}
    (split : roster.registered = first ++ chain :: last) :
    roster.heads = first.filterMap List.getLast? ++ chain.getLast?.toList ++ last.filterMap List.getLast? := by
  rw [heads, split, List.filterMap_append, List.filterMap_cons, List.append_assoc]
  cases chain.getLast? <;> rfl

theorem distinct_parts (distinct : roster.members.Nodup) :
    roster.registered.flatten.Nodup ∧ roster.hidden.flatten.Nodup := by
  rw [members, chains, List.flatten_append] at distinct
  exact ⟨(List.nodup_append.mp distinct).1, (List.nodup_append.mp distinct).2.1⟩

theorem not_hidden_of_registered {handle : Handle} (distinct : roster.members.Nodup)
    (within : handle ∈ roster.registered.flatten) : handle ∉ roster.hidden.flatten := by
  rw [members, chains, List.flatten_append] at distinct
  exact fun also => (List.nodup_append.mp distinct).2.2 handle within handle also rfl

theorem heads_reveal (distinct : roster.members.Nodup) (member : before ++ [head] ∈ roster.hidden) :
    (roster.reveal head).heads = head :: roster.heads := by
  simp only [heads, reveal, filter_ledBy (distinct_parts distinct).2 member, List.singleton_append,
    List.filterMap_cons, List.getLast?_append, List.getLast?_singleton, Option.some_or]

theorem heads_conceal {first last : List (List Handle)} (distinct : roster.members.Nodup)
    (split : roster.registered = first ++ (before ++ [head]) :: last) :
    (roster.conceal head).heads =
      first.filterMap List.getLast? ++ last.filterMap List.getLast? := by
  have apart := (distinct_parts distinct).1
  rw [split] at apart
  rw [heads, conceal, split, filter_not_ledBy apart, List.filterMap_append]

/-- A chain from which frames leave keeps its place, with the head that is left. -/
theorem heads_without {first last : List (List Handle)} (distinct : roster.members.Nodup)
    (inhabited : ∀ chain ∈ roster.chains, chain ≠ [])
    (split : roster.registered = first ++ chain :: last) (within : ∀ member ∈ gone, member ∈ chain) :
    (roster.without gone).heads =
      first.filterMap List.getLast? ++ (chain.filter (· ∉ gone)).getLast?.toList ++
        last.filterMap List.getLast? := by
  have full : ∀ other ∈ first ++ chain :: last, other ≠ [] :=
    fun other member => inhabited other (List.mem_append_left _ (split ▸ member))
  have here : (remnant (chain.filter (· ∉ gone))).filterMap List.getLast? =
      (chain.filter (· ∉ gone)).getLast?.toList := by
    unfold remnant
    cases chain.filter (· ∉ gone) <;> simp [List.getLast?_cons]
  rw [heads, without, split, thinned_of_split (split ▸ (distinct_parts distinct).1) full within, List.filterMap_append,
    List.filterMap_append, here]

theorem thinned_of_other {whole : List Handle} {chains others : List (List Handle)}
    (distinct : (chains ++ others).flatten.Nodup) (inhabited : ∀ chain ∈ chains, chain ≠ []) (member : whole ∈ others)
    (within : ∀ handle ∈ gone, handle ∈ whole) : thinned gone chains = chains := by
  apply thinned_of_apart inhabited
  intro other inside inner held leaves
  rw [List.flatten_append] at distinct
  exact (List.nodup_append.mp distinct).2.2 inner (List.mem_flatten.mpr ⟨other, inside, held⟩)
    inner (List.mem_flatten.mpr ⟨whole, member, within inner leaves⟩) rfl

theorem heads_without_of_hidden (distinct : roster.members.Nodup)
    (inhabited : ∀ chain ∈ roster.chains, chain ≠ [])
    (member : chain ∈ roster.hidden) (within : ∀ member ∈ gone, member ∈ chain) :
    (roster.without gone).heads = roster.heads := by
  have same : thinned gone roster.registered = roster.registered := thinned_of_other distinct
    (fun chain member => inhabited chain (List.mem_append_left _ member)) member within
  rw [heads, without, same, heads]

end Roster

namespace Store

variable {store final : Store} {roster arranged : Roster} {before after : List Handle}
  {handle : Handle}

theorem Agrees.chainEnds (agrees : Agrees FrozenFrame.offRing store final) (handle : Handle) :
    final.chainEnds handle = store.chainEnds handle := by
  have same := agrees.coarsen (fun frame => Ends.mk frame.callee frame.caller)
    (fun frame => ⟨frame.callee, frame.caller⟩) fun _ => rfl
  exact same.frames handle

theorem OnRing.undisturbed {heads : List Handle} (ring : OnRing store heads)
    (same : ∀ node, final.ringAt node = store.ringAt node)
    (registered : final.registered = store.registered) : OnRing final heads := by
  have anchor : final.anchor = store.anchor := by simpa [ringAt] using same .anchor
  refine ⟨ring.threaded.congr fun member _ => ?_, ?_, ?_, fun handle linked => ?_, ?_⟩
  · simp only [ringEnds, same]
  · rw [anchor, ring.first]
  · rw [anchor, ring.last]
  · exact ring.closed handle (same _ ▸ linked)
  · rw [registered, ring.counted]

theorem Undisturbed.ringAt (kept : Undisturbed FrozenFrame.ring store final) (node : RingNode) :
    final.ringAt node = store.ringAt node := by
  cases node with
  | anchor => exact congrArg some kept.anchor
  | head handle =>
    have joined := congrArg (Option.bind · id) (kept.frames handle)
    simp only [Option.bind_map] at joined
    exact joined

theorem Represents.undisturbed (valid : Represents store roster)
    (kept : Undisturbed FrozenFrame.neighbours store final) : Represents final roster := by
  have ends : ∀ member, final.chainEnds member = store.chainEnds member :=
    (kept.coarsen (fun frame => Ends.mk frame.callee frame.caller) (fun view => ⟨view.1, view.2.1⟩)
      fun _ => rfl).frames
  refine ⟨kept.sound valid.sound, valid.distinct, valid.inhabited, fun handle => ?_,
    fun chain member => (valid.linked chain member).congr fun other _ => ends other,
    valid.ring.undisturbed (kept.coarsen FrozenFrame.ring (·.2.2) fun _ => rfl).ringAt kept.registered⟩
  rw [kept.live_iff, valid.live]

theorem Represents.rearranged (valid : Represents store roster)
    (agrees : Agrees FrozenFrame.offRing store final) (same : arranged.chains.Perm roster.chains)
    (ring : OnRing final arranged.heads) : Represents final arranged := by
  have members : arranged.members.Perm roster.members := same.flatten
  refine ⟨agrees.sound valid.sound, members.nodup_iff.mpr valid.distinct,
    fun chain member => valid.inhabited chain (same.mem_iff.mp member), fun handle => ?_,
    fun chain member => ?_, ring⟩
  · rw [members.mem_iff, agrees.live_iff, valid.live]
  · exact (valid.linked chain (same.mem_iff.mp member)).congr fun other _ => agrees.chainEnds other

/-- A frame has left its chain. -/
theorem Represents.left (valid : Represents store roster)
    (member : before ++ handle :: after ∈ roster.chains) (sound : final.arena.Sound)
    (live : ∀ other, (final.arena.find? other).isSome ↔
      other ≠ handle ∧ (store.arena.find? other).isSome)
    (closed : ∀ other, other ≠ handle → final.chainEnds other = (store.chainEnds other).map fun known =>
      ⟨if after.head? = some other then before.getLast? else known.before,
        if before.getLast? = some other then after.head? else known.after⟩)
    (ring : OnRing final (roster.without [handle]).heads) :
    Represents final (roster.without [handle]) := by
  refine ⟨sound, ?_, ?_, fun other => ?_, ?_, ring⟩
  · rw [Roster.members_without]
    exact valid.distinct.filter _
  · intro chain inside
    rw [Roster.chains_without, mem_thinned] at inside
    exact inside.1
  · rw [Roster.members_without, List.mem_filter, valid.live, live, and_comm]
    simp
  · intro chain inside
    rw [Roster.chains_without, mem_thinned] at inside
    obtain ⟨_, whole, inside, rfl⟩ := inside
    have threaded := valid.linked whole inside
    by_cases within : handle ∈ whole
    · obtain rfl := eq_of_shared valid.distinct member inside (by simp) within
      have distinct := List.nodup_middle.mp (valid.chain_distinct member)
      obtain ⟨fresh, distinct⟩ := List.nodup_cons.mp distinct
      rw [filter_gap fresh]
      apply threaded.remove distinct
      intro other inner
      exact closed other fun same => fresh (same ▸ inner)
    · rw [filter_apart within]
      apply threaded.congr
      intro other inner
      have apart : other ∉ before ++ handle :: after := by
        intro inner'
        obtain rfl := eq_of_shared valid.distinct member inside inner' inner
        simp at within
      simp only [List.mem_append, List.mem_cons, not_or] at apart
      have notLast : before.getLast? ≠ some other := fun last => apart.1 (List.mem_of_getLast? last)
      have notFirst : after.head? ≠ some other := fun first => apart.2.2 (List.mem_of_head? first)
      rw [closed other apart.2.1]
      simp only [if_neg notLast, if_neg notFirst]
      cases store.chainEnds other <;> rfl

end Store
end CallStacks.Frozen
