import CallStacks.Frozen.Failure

/-!
Arenas. An arena is a finite map from handles to values. A slot that is vacated is filled again
before a new one is made, the last vacated first: the vacant slots are linked from one to the next.
A slot counts its generation on when it is vacated, so that a handle of a removed value stays
without a value.
-/

namespace CallStacks.Frozen

/-- A slot in one of its generations. -/
inductive Slot (α : Type) where
  | occupied (generation : UInt32) (value : α)
  /-- A vacant slot leads to the one that is filled after it. -/
  | vacant (generation : UInt32) (nextFree : Option UInt32)

namespace Slot

variable {α : Type}

def generation : Slot α → UInt32
  | .occupied generation _ | .vacant generation _ => generation

def content : Slot α → Option α
  | .occupied _ value => some value
  | .vacant .. => none

@[simp] theorem generation_occupied (generation : UInt32) (value : α) :
    (occupied generation value).generation = generation := rfl

@[simp] theorem generation_vacant (generation : UInt32) (nextFree : Option UInt32) :
    (vacant generation nextFree : Slot α).generation = generation := rfl

@[simp] theorem content_occupied (generation : UInt32) (value : α) :
    (occupied generation value).content = some value := rfl

@[simp] theorem content_vacant (generation : UInt32) (nextFree : Option UInt32) :
    (vacant generation nextFree : Slot α).content = none := rfl

theorem eq_occupied {slot : Slot α} {value : α} (filled : slot.content = some value) :
    slot = .occupied slot.generation value := by
  cases slot with
  | occupied generation held => exact congrArg (occupied generation) (Option.some.inj filled)
  | vacant generation nextFree => cases filled

end Slot

structure Arena (α : Type) where
  slots : Array (Slot α) := #[]
  /-- The vacant slot that is filled first. -/
  freeHead : Option UInt32 := none
  /-- The number of occupied slots. -/
  count : Nat := 0

namespace Arena

variable {α : Type}

def empty : Arena α := {}

def isEmpty (arena : Arena α) : Bool := arena.count == 0

def find? (arena : Arena α) (handle : Handle) : Option α :=
  match arena.slots[handle.index.toNat]? with
  | some (.occupied generation value) => if generation = handle.generation then some value else none
  | _ => none

/-- The value of a handle; a handle without one is stale. -/
def get (arena : Arena α) (handle : Handle) : Except Refusal α :=
  Failure.ofOption (.stale handle) (arena.find? handle)

/-- Put a value into the vacant slot whose turn it is, or into a new one if none is vacant. -/
def insert (arena : Arena α) (value : α) : Except Fault (Handle × Arena α) :=
  match arena.freeHead with
  | some index =>
    match arena.slots[index.toNat]? with
    | some (.vacant generation nextFree) =>
      .ok (⟨index, generation⟩,
        { slots := arena.slots.setIfInBounds index.toNat (.occupied generation value)
          freeHead := nextFree
          count := arena.count + 1 })
    | some (.occupied ..) => .error (.violated .occupiedFree)
    | none => .error .impossible
  | none =>
    if arena.slots.size < UInt32.size then
      .ok (⟨UInt32.ofNat arena.slots.size, 0⟩,
        { slots := arena.slots.push (.occupied 0 value)
          freeHead := none
          count := arena.count + 1 })
    else .error (.violated .arenaFull)

def set (arena : Arena α) (handle : Handle) (value : α) : Arena α :=
  match arena.find? handle with
  | some _ =>
    { arena with
      slots := arena.slots.setIfInBounds handle.index.toNat (.occupied handle.generation value) }
  | none => arena

/-- Take a value out. Its slot is the next to be filled. -/
def remove (arena : Arena α) (handle : Handle) : Except Failure (α × Arena α) :=
  match arena.find? handle with
  | none => .error (.refused (.stale handle))
  | some _ =>
    if arena.count = 0 then .error (.stopped .overflow)
    else
      match arena.slots[handle.index.toNat]? with
      | some (.occupied _ value) =>
        .ok (value,
          { slots := arena.slots.setIfInBounds handle.index.toNat
              (.vacant (handle.generation + 1) arena.freeHead)
            freeHead := some handle.index
            count := arena.count - 1 })
      | some (.vacant ..) => .error (.stopped (.violated .vacantLive))
      | none => .error (.stopped .impossible)

/-- Handles and values in the order of their slots. -/
def toList (arena : Arena α) : List (Handle × α) :=
  arena.slots.toList.zipIdx.filterMap fun (slot, index) =>
    slot.content.map (⟨⟨UInt32.ofNat index, slot.generation⟩, ·⟩)

variable {arena after : Arena α} {handle : Handle} {value : α}

/-- A handle names a value exactly if its slot holds that value in the handle's generation. -/
theorem find?_eq_some_iff : arena.find? handle = some value ↔
    arena.slots[handle.index.toNat]? = some (.occupied handle.generation value) := by
  unfold find?
  split
  next generation held same =>
    rw [same]
    by_cases here : generation = handle.generation <;> simp [here]
  next other =>
    exact iff_of_false nofun (other handle.generation value)

/-- What an insertion does: it fills the first vacant slot, or a new one if there is none. -/
theorem insert_cases (inserted : arena.insert value = .ok (handle, after)) :
    (∃ nextFree, arena.freeHead = some handle.index ∧
      arena.slots[handle.index.toNat]? = some (.vacant handle.generation nextFree) ∧
      after = ⟨arena.slots.setIfInBounds handle.index.toNat (.occupied handle.generation value),
        nextFree, arena.count + 1⟩) ∨
    arena.freeHead = none ∧ arena.slots.size < UInt32.size ∧
      handle.index.toNat = arena.slots.size ∧ handle.generation = 0 ∧
      after = ⟨arena.slots.push (.occupied handle.generation value), none, arena.count + 1⟩ := by
  unfold insert at inserted
  split at inserted
  next index first =>
    split at inserted
    next generation nextFree vacant =>
      cases inserted
      exact .inl ⟨nextFree, first, vacant, rfl⟩
    next => cases inserted
    next => cases inserted
  next first =>
    split at inserted
    next room =>
      cases inserted
      exact .inr ⟨first, room, UInt32.toNat_ofNat_of_lt' room, rfl, rfl⟩
    next => cases inserted

/-- What a removal does: it vacates the slot of a live handle and makes it the first one free. -/
theorem remove_cases (removed : arena.remove handle = .ok (value, after)) :
    arena.slots[handle.index.toNat]? = some (.occupied handle.generation value) ∧ arena.count ≠ 0 ∧
      after = ⟨arena.slots.setIfInBounds handle.index.toNat
        (.vacant (handle.generation + 1) arena.freeHead), some handle.index, arena.count - 1⟩ := by
  unfold remove at removed
  split at removed
  next => cases removed
  next found =>
    have live := find?_eq_some_iff.mp found
    split at removed
    next => cases removed
    next filled =>
      rw [live] at removed
      cases removed
      exact ⟨live, filled, rfl⟩

/-- Handles of one slot differ in their generations. -/
theorem generation_ne {first second : Handle} (different : first ≠ second)
    (index : first.index.toNat = second.index.toNat) : first.generation ≠ second.generation := by
  intro generation
  apply different
  cases first
  cases second
  simp_all [UInt32.toNat_inj]

/-- A handle of another generation than its slot's names nothing. -/
theorem find?_eq_none {slot : Slot α} (held : arena.slots[handle.index.toNat]? = some slot)
    (stale : slot.generation ≠ handle.generation) : arena.find? handle = none := by
  cases slot with
  | occupied generation value => simpa [find?, held] using stale
  | vacant generation nextFree => simp [find?, held]

/-- What a handle names after the slot of some index has been replaced. -/
theorem find?_replace (arena : Arena α) {index : Nat} (inside : index < arena.slots.size)
    (slot : Slot α) (freeHead : Option UInt32) (count : Nat) (handle : Handle) :
    find? ⟨arena.slots.setIfInBounds index slot, freeHead, count⟩ handle =
      if handle.index.toNat = index then
        if slot.generation = handle.generation then slot.content else none
      else arena.find? handle := by
  simp only [find?, Array.getElem?_setIfInBounds]
  by_cases place : handle.index.toNat = index
  · subst place
    rw [if_pos rfl, if_pos rfl, if_pos inside]
    cases slot with
    | occupied generation value => rfl
    | vacant generation nextFree => exact (ite_self none).symm
  · simp [place, Ne.symm place]

/-- A slot that is filled in its generation, or vacated, changes the meaning of no handle but its own. -/
theorem find?_turn {old new : Slot α} (held : arena.slots[handle.index.toNat]? = some old)
    (current : old.generation = handle.generation)
    (turns : new.generation = handle.generation ∨ new.content = none)
    (freeHead : Option UInt32) (count : Nat) (other : Handle) :
    find? ⟨arena.slots.setIfInBounds handle.index.toNat new, freeHead, count⟩ other =
      if other = handle then if new.generation = handle.generation then new.content else none
      else arena.find? other := by
  rw [find?_replace arena (Array.getElem?_eq_some_iff.mp held).1]
  by_cases same : other = handle
  · simp [same]
  · by_cases place : other.index.toNat = handle.index.toNat
    · have stale := generation_ne same place
      have before := find?_eq_none (place ▸ held) (current ▸ stale.symm)
      rcases turns with filled | vacated
      · simp [same, place, filled, stale.symm, before]
      · simp [same, place, vacated, before]
    · simp [same, place]

/-- An inserted value is what its handle names, and no other handle changes its meaning. -/
theorem find?_insert (inserted : arena.insert value = .ok (handle, after)) (other : Handle) :
    after.find? other = if other = handle then some value else arena.find? other := by
  obtain ⟨nextFree, _, vacant, rfl⟩ | ⟨_, _, index, _, rfl⟩ := insert_cases inserted
  · rw [find?_turn vacant rfl (.inl rfl)]
    simp
  · simp only [find?, Array.getElem?_push]
    by_cases same : other = handle
    · simp [same, index]
    · by_cases place : other.index.toNat = arena.slots.size
      · have stale := (generation_ne same (place.trans index.symm)).symm
        simp [same, place, stale]
      · simp [same, place]

/-- A removed value leaves its handle with none, and no other handle changes its meaning. -/
theorem find?_remove (removed : arena.remove handle = .ok (value, after)) (other : Handle) :
    after.find? other = if other = handle then none else arena.find? other := by
  obtain ⟨live, _, rfl⟩ := remove_cases removed
  rw [find?_turn live rfl (.inr rfl)]
  simp

/-- Replacing the value of a live handle changes the meaning of that handle only. -/
theorem find?_set {old : α} (live : arena.find? handle = some old) (value : α) (other : Handle) :
    (arena.set handle value).find? other =
      if other = handle then some value else arena.find? other := by
  simp only [set, live]
  rw [find?_turn (find?_eq_some_iff.mp live) rfl (.inl rfl)]
  simp

end Arena
end CallStacks.Frozen
