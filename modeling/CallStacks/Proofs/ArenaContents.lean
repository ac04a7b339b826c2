import CallStacks.Frozen.Arena

/-! What an arena holds. The bookkeeping of an arena (its count and its list of vacant slots) agrees
with its slots after any sequence of operations, and then the handles that name a value are exactly
those that a listing shows. -/

namespace CallStacks.Frozen.Arena

variable {α : Type} {arena after : Arena α} {handle : Handle} {value : α} {index : UInt32} {indices : List UInt32}

section Free

variable {slots : Array (Slot α)} {freeHead : Option UInt32}

/-- The list of vacant slots, followed from one to the next. -/
inductive Free (slots : Array (Slot α)) : Option UInt32 → List UInt32 → Prop
  | done : Free slots none []
  | step {index generation : UInt32} {nextFree : Option UInt32} {rest : List UInt32}
      (vacant : slots[index.toNat]? = some (.vacant generation nextFree)) (later : Free slots nextFree rest) :
      Free slots (some index) (index :: rest)

namespace Free

private theorem vacant_of_mem (free : Free slots freeHead indices) (member : index ∈ indices) :
    ∃ generation nextFree, slots[index.toNat]? = some (.vacant generation nextFree) := by
  induction free with
  | done => cases member
  | step vacant later ih =>
    rcases List.mem_cons.mp member with rfl | member
    · exact ⟨_, _, vacant⟩
    · exact ih member

private theorem unique {others : List UInt32} (free : Free slots freeHead indices)
    (other : Free slots freeHead others) :
    indices = others := by
  induction free generalizing others with
  | done => cases other; rfl
  | step vacant later ih =>
    cases other with
    | step vacant' later' =>
      cases vacant.symm.trans vacant'
      rw [ih later']

private theorem onward (free : Free slots freeHead indices) (member : index ∈ indices) :
    ∃ rest, Free slots (some index) (index :: rest) ∧ rest.length < indices.length := by
  induction free with
  | done => cases member
  | @step first generation nextFree rest vacant later ih =>
    rcases List.mem_cons.mp member with rfl | member
    · exact ⟨rest, .step vacant later, by simp⟩
    · obtain ⟨rest, onward, shorter⟩ := ih member
      exact ⟨rest, onward, Nat.lt_succ_of_lt shorter⟩

/-- The list never comes back to a slot: it would go on from there as it did before, and never end. -/
theorem nodup (free : Free slots freeHead indices) : indices.Nodup := by
  induction free with
  | done => exact List.nodup_nil
  | step vacant later ih =>
    refine List.nodup_cons.mpr ⟨fun member => ?_, ih⟩
    obtain ⟨rest, onward, shorter⟩ := later.onward member
    obtain rfl := (List.cons.inj ((step vacant later).unique onward)).2
    exact Nat.lt_irrefl _ shorter

private theorem turn (free : Free slots freeHead indices) (off : index ∉ indices) (slot : Slot α) :
    Free (slots.setIfInBounds index.toNat slot) freeHead indices := by
  induction free with
  | done => exact .done
  | step vacant later ih =>
    have apart := mt UInt32.toNat_inj.mp (List.ne_of_not_mem_cons off)
    exact .step ((Array.getElem?_setIfInBounds_ne apart).trans vacant) (ih (List.not_mem_of_not_mem_cons off))

private theorem push (free : Free slots freeHead indices) (slot : Slot α) :
    Free (slots.push slot) freeHead indices := by
  induction free with
  | done => exact .done
  | step vacant later ih =>
    obtain ⟨inside, here⟩ := Array.getElem?_eq_some_iff.mp vacant
    exact .step ((Array.getElem?_push_lt inside).trans (congrArg some here)) ih

end Free
end Free

/-- The vacant slots of an arena are listed: those that the list goes through, and no others. -/
structure Lists (arena : Arena α) (indices : List UInt32) : Prop where
  free : Free arena.slots arena.freeHead indices
  complete : ∀ index generation nextFree,
    arena.slots[index.toNat]? = some (.vacant generation nextFree) → index ∈ indices

namespace Lists

theorem mem_iff (lists : arena.Lists indices) : index ∈ indices ↔
    ∃ generation nextFree, arena.slots[index.toNat]? = some (.vacant generation nextFree) :=
  ⟨lists.free.vacant_of_mem, fun ⟨_, _, vacant⟩ => lists.complete _ _ _ vacant⟩

private theorem off (lists : arena.Lists indices) {generation : UInt32}
    (live : arena.slots[index.toNat]? = some (.occupied generation value)) : index ∉ indices := fun member => by
  obtain ⟨_, _, vacant⟩ := lists.free.vacant_of_mem member
  cases live.symm.trans vacant

private theorem vacant_turn {slots : Array (Slot α)} {slot : Slot α} {other generation : UInt32}
    {nextFree : Option UInt32}
    (vacant : (slots.setIfInBounds index.toNat slot)[other.toNat]? = some (.vacant generation nextFree)) :
    other = index ∧ slot = .vacant generation nextFree ∨
      other ≠ index ∧ slots[other.toNat]? = some (.vacant generation nextFree) := by
  by_cases same : other = index
  · subst same
    obtain ⟨_, rfl⟩ : other.toNat < slots.size ∧ slot = .vacant generation nextFree := by
      simpa [Array.getElem?_setIfInBounds] using vacant
    exact .inl ⟨rfl, rfl⟩
  · rw [Array.getElem?_setIfInBounds_ne (mt UInt32.toNat_inj.mp (Ne.symm same))] at vacant
    exact .inr ⟨same, vacant⟩

private theorem refill (lists : arena.Lists indices) {generation later : UInt32} {old : α}
    (live : arena.slots[index.toNat]? = some (.occupied generation old)) (value : α) (count : Nat) :
    Lists ⟨arena.slots.setIfInBounds index.toNat (.occupied later value), arena.freeHead, count⟩ indices := by
  refine ⟨lists.free.turn (lists.off live) _, fun other generation nextFree vacant => ?_⟩
  obtain ⟨_, filled⟩ | ⟨_, vacant⟩ := vacant_turn vacant
  · cases filled
  · exact lists.complete _ _ _ vacant

private theorem fill (lists : arena.Lists indices) {generation : UInt32} {nextFree : Option UInt32}
    (first : arena.freeHead = some index) (vacant : arena.slots[index.toNat]? = some (.vacant generation nextFree))
    (value : α) (count : Nat) :
    ∃ rest, Lists ⟨arena.slots.setIfInBounds index.toNat (.occupied generation value), nextFree, count⟩ rest := by
  obtain ⟨free, complete⟩ := lists
  have distinct := free.nodup
  rw [first] at free
  cases free with
  | @step _ _ _ rest vacant' later =>
    cases vacant.symm.trans vacant'
    refine ⟨rest, later.turn (List.nodup_cons.mp distinct).1 _, fun other generation nextFree vacant => ?_⟩
    obtain ⟨_, filled⟩ | ⟨other, vacant⟩ := vacant_turn vacant
    · cases filled
    · exact (List.mem_cons.mp (complete _ _ _ vacant)).resolve_left other

private theorem push (lists : arena.Lists indices) {generation : UInt32} (value : α) (count : Nat) :
    Lists ⟨arena.slots.push (.occupied generation value), arena.freeHead, count⟩ indices := by
  refine ⟨lists.free.push _, fun other generation nextFree vacant => lists.complete other generation nextFree ?_⟩
  rw [Array.getElem?_push] at vacant
  split at vacant
  next => cases vacant
  next => exact vacant

private theorem vacate (lists : arena.Lists indices) {generation : UInt32}
    (live : arena.slots[index.toNat]? = some (.occupied generation value)) (later : UInt32) (count : Nat) :
    Lists ⟨arena.slots.setIfInBounds index.toNat (.vacant later arena.freeHead), some index, count⟩
      (index :: indices) := by
  have inside := (Array.getElem?_eq_some_iff.mp live).1
  have vacated : (arena.slots.setIfInBounds index.toNat (.vacant later arena.freeHead))[index.toNat]? =
      some (.vacant later arena.freeHead) := by simp [inside]
  refine ⟨.step vacated (lists.free.turn (lists.off live) _), fun other generation nextFree vacant => ?_⟩
  obtain ⟨rfl, _⟩ | ⟨_, vacant⟩ := vacant_turn vacant
  · exact List.mem_cons_self
  · exact List.mem_cons_of_mem _ (lists.complete _ _ _ vacant)

end Lists

/-- The bookkeeping agrees with the slots. -/
structure Sound (arena : Arena α) : Prop where
  bounded : arena.slots.size ≤ UInt32.size
  counted : arena.count = arena.slots.countP (·.content.isSome)
  listed : ∃ indices, arena.Lists indices

theorem sound_empty : (empty : Arena α).Sound := ⟨by simp [empty], rfl, [], .done, by simp [empty]⟩

private theorem index_lt_of_live (live : arena.find? handle = some value) :
    handle.index.toNat < arena.slots.size :=
  (Array.getElem?_eq_some_iff.mp (find?_eq_some_iff.mp live)).1

private theorem countP_replace {slots : Array (Slot α)} {index : Nat} {old : Slot α}
    (held : slots[index]? = some old) (new : Slot α) :
    (slots.setIfInBounds index new).countP (·.content.isSome) + old.content.isSome.toNat =
      slots.countP (·.content.isSome) + new.content.isSome.toNat := by
  obtain ⟨inside, same⟩ := Array.getElem?_eq_some_iff.mp held
  have known := Array.boole_getElem_le_countP (p := fun slot : Slot α => slot.content.isSome) inside
  rw [Array.setIfInBounds_def, dif_pos inside, Array.countP_set inside]
  rw [same] at known ⊢
  cases filled : old.content.isSome <;> cases new.content.isSome <;>
    simp only [filled, Bool.toNat_true, Bool.toNat_false, Bool.false_eq_true, if_true, if_false] at known ⊢ <;>
    omega

theorem Sound.set (sound : arena.Sound) (handle : Handle) (value : α) :
    (arena.set handle value).Sound := by
  unfold Arena.set
  split
  next old live =>
    have held := find?_eq_some_iff.mp live
    obtain ⟨indices, lists⟩ := sound.listed
    refine ⟨by simpa using sound.bounded, ?_, indices, lists.refill held value _⟩
    have moved := countP_replace held (.occupied handle.generation value)
    simp only [Slot.content_occupied, Option.isSome_some, Bool.toNat_true] at moved
    have counted := sound.counted
    simp only
    omega
  next => exact sound

theorem set_self (live : arena.find? handle = some value) : arena.set handle value = arena := by
  have held := find?_eq_some_iff.mp live
  obtain ⟨inside, same⟩ := Array.getElem?_eq_some_iff.mp held
  simp only [Arena.set, live]
  congr
  rw [Array.setIfInBounds_def, dif_pos inside, ← same, Array.set_getElem_self]

theorem find?_of_insert (inserted : arena.insert value = .ok (handle, after)) :
    arena.find? handle = none := by
  obtain ⟨_, _, vacant, _⟩ | ⟨_, _, index, _, _⟩ := insert_cases inserted
  · simp [find?, vacant]
  · simp [find?, index]

theorem Sound.insert (sound : arena.Sound) (inserted : arena.insert value = .ok (handle, after)) :
    after.Sound := by
  obtain ⟨indices, lists⟩ := sound.listed
  have counted := sound.counted
  obtain ⟨nextFree, first, vacant, rfl⟩ | ⟨none, room, _, _, rfl⟩ := insert_cases inserted
  · refine ⟨by simpa using sound.bounded, ?_, lists.fill first vacant value _⟩
    have moved := countP_replace vacant (.occupied handle.generation value)
    simp only [Slot.content_occupied, Slot.content_vacant, Option.isSome_some, Option.isSome_none, Bool.toNat_true,
      Bool.toNat_false] at moved
    simp only
    omega
  · refine ⟨?_, by simp [counted, Array.countP_push], indices, none ▸ lists.push value _⟩
    rw [Array.size_push]
    exact room

theorem Sound.remove (sound : arena.Sound) (removed : arena.remove handle = .ok (value, after)) :
    after.Sound := by
  obtain ⟨indices, lists⟩ := sound.listed
  obtain ⟨live, filled, rfl⟩ := remove_cases removed
  refine ⟨by simpa using sound.bounded, ?_, _, lists.vacate live _ _⟩
  have moved := countP_replace live (.vacant (handle.generation + 1) arena.freeHead)
  simp only [Slot.content_occupied, Slot.content_vacant, Option.isSome_some, Option.isSome_none, Bool.toNat_true,
    Bool.toNat_false] at moved
  have counted := sound.counted
  simp only
  omega

/-- Insertion fails only when there is no slot left to make. In particular no occupied slot is found on the list of
vacant ones. -/
theorem Sound.insert_error (sound : arena.Sound) {fault : Fault} (failed : arena.insert value = .error fault) :
    fault = .violated .arenaFull ∧ arena.freeHead = none ∧ arena.slots.size = UInt32.size := by
  obtain ⟨indices, free, _⟩ := sound.listed
  unfold Arena.insert at failed
  split at failed
  next index first =>
    rw [first] at free
    cases free with
    | step vacant later =>
      rw [vacant] at failed
      cases failed
  next none =>
    split at failed
    next => cases failed
    next full =>
      cases failed
      exact ⟨rfl, none, Nat.le_antisymm sound.bounded (Nat.le_of_not_lt full)⟩

theorem remove_of_live (sound : arena.Sound) (live : arena.find? handle = some value) :
    ∃ after, arena.remove handle = .ok (value, after) := by
  have held := find?_eq_some_iff.mp live
  have filled : arena.count ≠ 0 := by
    have some : 0 < arena.slots.countP (·.content.isSome) := by
      apply Array.countP_pos_iff.mpr
      exact ⟨_, Array.mem_of_getElem? held, rfl⟩
    rw [sound.counted]
    omega
  simp only [remove, live, filled, if_false, held]
  exact ⟨_, rfl⟩

theorem nodup_indices {handles : List Handle} (distinct : handles.Nodup)
    (live : ∀ handle ∈ handles, (arena.find? handle).isSome = true) :
    (handles.map (·.index.toNat)).Nodup := by
  apply List.pairwise_map.mpr
  apply distinct.imp_of_mem
  intro first second within within' different same
  obtain ⟨value, held⟩ := Option.isSome_iff_exists.mp (live first within)
  obtain ⟨other, held'⟩ := Option.isSome_iff_exists.mp (live second within')
  have slot := find?_eq_some_iff.mp held
  have slot' := find?_eq_some_iff.mp held'
  rw [same, slot'] at slot
  exact generation_ne different same (congrArg (·.generation) (Option.some.inj slot)).symm

theorem length_le_size {handles : List Handle} (distinct : handles.Nodup)
    (live : ∀ handle ∈ handles, (arena.find? handle).isSome = true) :
    handles.length ≤ arena.slots.size := by
  have within : handles.map (·.index.toNat) ⊆ List.range arena.slots.size := by
    intro index member
    obtain ⟨handle, within, rfl⟩ := List.mem_map.mp member
    obtain ⟨value, held⟩ := Option.isSome_iff_exists.mp (live handle within)
    exact List.mem_range.mpr (index_lt_of_live held)
  simpa using (nodup_indices distinct live).length_le_of_subset within

theorem mem_toList (bounded : arena.slots.size ≤ UInt32.size) :
    (handle, value) ∈ arena.toList ↔ arena.find? handle = some value := by
  rw [find?_eq_some_iff]
  simp only [toList, List.mem_filterMap, Prod.exists, Option.map_eq_some_iff, Prod.mk.injEq]
  constructor
  · rintro ⟨slot, index, member, content, held, named, rfl⟩
    have found := List.mem_zipIdx_iff_getElem?.mp member
    simp only [Array.getElem?_toList] at found
    have inside := (Array.getElem?_eq_some_iff.mp found).1
    have place : (UInt32.ofNat index).toNat = index :=
      UInt32.toNat_ofNat_of_lt' (Nat.lt_of_lt_of_le inside bounded)
    rw [← named, place, found]
    exact congrArg some (Slot.eq_occupied held)
  · intro held
    refine ⟨.occupied handle.generation value, handle.index.toNat,
      List.mem_zipIdx_iff_getElem?.mpr ?_, value, rfl, ?_, rfl⟩
    · simpa only [Array.getElem?_toList] using held
    · simp

theorem ascending_toList (bounded : arena.slots.size ≤ UInt32.size) :
    (arena.toList.map (·.1.index.toNat)).Pairwise (· < ·) := by
  have ascending : arena.slots.toList.zipIdx.Pairwise fun first second => first.2 < second.2 := by
    apply List.pairwise_map.mp
    change (arena.slots.toList.zipIdx.map (·.2)).Pairwise (· < ·)
    rw [List.zipIdx_map_snd]
    exact List.pairwise_lt_range'
  apply List.pairwise_map.mpr
  apply List.pairwise_filterMap.mpr
  apply ascending.imp_of_mem
  rintro ⟨slot, i⟩ ⟨other, j⟩ first second less shown shownFirst shownOther shownSecond
  obtain ⟨_, _, rfl⟩ := Option.map_eq_some_iff.mp shownFirst
  obtain ⟨_, _, rfl⟩ := Option.map_eq_some_iff.mp shownSecond
  have inside := (List.getElem?_eq_some_iff.mp (List.mem_zipIdx_iff_getElem?.mp first)).1
  have inside' := (List.getElem?_eq_some_iff.mp (List.mem_zipIdx_iff_getElem?.mp second)).1
  rw [Array.length_toList] at inside inside'
  rwa [UInt32.toNat_ofNat_of_lt' (Nat.lt_of_lt_of_le inside bounded),
    UInt32.toNat_ofNat_of_lt' (Nat.lt_of_lt_of_le inside' bounded)]

theorem nodup_toList (bounded : arena.slots.size ≤ UInt32.size) :
    (arena.toList.map (·.1)).Nodup := by
  apply List.pairwise_map.mpr
  refine (List.pairwise_map.mp (ascending_toList bounded)).imp fun less same => ?_
  exact Nat.ne_of_lt less (congrArg (·.index.toNat) same)

theorem length_toList (sound : arena.Sound) : arena.toList.length = arena.count := by
  have counted : arena.count = (arena.slots.toList.zipIdx.map Prod.fst).countP (·.content.isSome) := by
    rw [List.zipIdx_map_fst, Array.countP_toList, sound.counted]
  rw [toList, List.length_filterMap_eq_countP, counted, List.countP_map]
  exact List.countP_congr fun entry _ => by simp

end CallStacks.Frozen.Arena
