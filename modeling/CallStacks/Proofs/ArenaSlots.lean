import CallStacks.Proofs.ArenaContents

/-! What insertion and removal make of one slot: its generation, and whether it is filled. -/

namespace CallStacks.Frozen.Arena

variable {α : Type} {arena after : Arena α} {handle : Handle} {value : α} {index : Nat}

/-- The generation of a slot, and whether it is filled. -/
def slotAt (arena : Arena α) (index : Nat) : Option (UInt32 × Bool) :=
  arena.slots[index]?.map fun slot => (slot.generation, slot.content.isSome)

theorem isSome_find?_iff : (arena.find? handle).isSome = true ↔
    arena.slotAt handle.index.toNat = some (handle.generation, true) := by
  unfold find? slotAt
  match arena.slots[handle.index.toNat]? with
  | none => simp
  | some (.vacant ..) => simp
  | some (.occupied generation value) => by_cases same : generation = handle.generation <;> simp [same]

private theorem slotAt_replace {slots : Array (Slot α)} {place : Nat} (inside : place < slots.size) (slot : Slot α)
    (freeHead : Option UInt32) (count : Nat) :
    slotAt ⟨slots.setIfInBounds place slot, freeHead, count⟩ index =
      if index = place then some (slot.generation, slot.content.isSome)
      else slots[index]?.map fun slot => (slot.generation, slot.content.isSome) := by
  rw [slotAt, Array.getElem?_setIfInBounds]
  by_cases same : place = index
  · subst same
    simp [inside]
  · rw [if_neg same, if_neg (Ne.symm same)]

theorem slotAt_set (arena : Arena α) (handle : Handle) (value : α) (index : Nat) :
    (arena.set handle value).slotAt index = arena.slotAt index := by
  unfold set
  split
  next old live =>
    have held := find?_eq_some_iff.mp live
    rw [slotAt_replace (Array.getElem?_eq_some_iff.mp held).1, slotAt]
    split
    next same => rw [same, held]; rfl
    next => rfl
  next => rfl

/-- An insertion fills one slot, an empty one in its generation or a new one in the first. -/
structure Fills (arena after : Arena α) (handle : Handle) : Prop where
  empty : arena.slotAt handle.index.toNat = some (handle.generation, false) ∨
    arena.slotAt handle.index.toNat = none ∧ handle.generation = 0
  slots : ∀ index, after.slotAt index =
    if index = handle.index.toNat then some (handle.generation, true) else arena.slotAt index

theorem fills_of_insert (inserted : arena.insert value = .ok (handle, after)) : Fills arena after handle := by
  obtain ⟨_, _, vacant, rfl⟩ | ⟨_, _, place, first, rfl⟩ := insert_cases inserted
  · refine ⟨.inl ?_, fun index => slotAt_replace (Array.getElem?_eq_some_iff.mp vacant).1 _ _ _⟩
    rw [slotAt, vacant]
    rfl
  · refine ⟨.inr ⟨?_, first⟩, fun index => ?_⟩
    · rw [slotAt, place, Array.getElem?_eq_none (Nat.le_refl _)]
      rfl
    · simp only [slotAt, Array.getElem?_push, place]
      split <;> rfl

structure Empties (arena after : Arena α) (handle : Handle) (value : α) : Prop where
  live : arena.find? handle = some value
  slots : ∀ index, after.slotAt index =
    if index = handle.index.toNat then some (handle.generation + 1, false) else arena.slotAt index

theorem empties_of_remove (removed : arena.remove handle = .ok (value, after)) : Empties arena after handle value := by
  obtain ⟨live, _, rfl⟩ := remove_cases removed
  exact ⟨find?_eq_some_iff.mpr live, fun index => slotAt_replace (Array.getElem?_eq_some_iff.mp live).1 _ _ _⟩

theorem slotAt_insert (inserted : arena.insert value = .ok (handle, after)) (index : Nat) :
    after.slotAt index = arena.slotAt index ∨ ∃ generation, after.slotAt index = some (generation, true) ∧
      (arena.slotAt index = some (generation, false) ∨ arena.slotAt index = none ∧ generation = 0) := by
  obtain ⟨empty, slots⟩ := fills_of_insert inserted
  rw [slots]
  split
  next same => exact .inr ⟨handle.generation, rfl, same ▸ empty⟩
  next => exact .inl rfl

theorem slotAt_remove (removed : arena.remove handle = .ok (value, after)) (index : Nat) :
    after.slotAt index = arena.slotAt index ∨
      ∃ generation, arena.slotAt index = some (generation, true) ∧
        after.slotAt index = some (generation + 1, false) := by
  obtain ⟨live, slots⟩ := empties_of_remove removed
  rw [slots]
  split
  next same =>
    refine .inr ⟨handle.generation, ?_, rfl⟩
    rw [same]
    exact isSome_find?_iff.mp (by rw [live]; rfl)
  next => exact .inl rfl

end CallStacks.Frozen.Arena
