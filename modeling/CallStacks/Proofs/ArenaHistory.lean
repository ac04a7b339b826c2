import CallStacks.Proofs.ArenaSlots

/-! An arena is a finite map, over every sequence of insertions and removals. What a handle stands for is read off
the calls alone: the value that it was given out for, until it is removed. Each slot's generation counts how often
the slot has been vacated, so that a handle which was removed comes again only when that count has gone all the way
round. -/

namespace CallStacks.Frozen.Arena

inductive Call (α : Type) where
  | inserted (handle : Handle) (value : α)
  | removed (handle : Handle) (value : α)
  /-- A removal that was turned down. -/
  | refused (handle : Handle)
  deriving DecidableEq

variable {α : Type} {arena after : Arena α} {calls later earlier : List (Call α)} {call : Call α} {handle : Handle}
  {value held : α}

/-- The calls on an arena that was empty at first, the last one first, and what they have made of it. -/
inductive Past : List (Call α) → Arena α → Prop
  | new : Past [] empty
  | insert {arena after : Arena α} {calls : List (Call α)} {handle : Handle} {value : α}
      (past : Past calls arena) (done : arena.insert value = .ok (handle, after)) :
      Past (.inserted handle value :: calls) after
  | remove {arena after : Arena α} {calls : List (Call α)} {handle : Handle} {value : α}
      (past : Past calls arena) (done : arena.remove handle = .ok (value, after)) :
      Past (.removed handle value :: calls) after
  | refuse {arena : Arena α} {calls : List (Call α)} {handle : Handle} {refusal : Refusal}
      (past : Past calls arena) (done : arena.remove handle = .error (.refused refusal)) :
      Past (.refused handle :: calls) arena

/-- A handle stands for the value that it was given out for, if it has not been removed since. -/
def Stands (calls : List (Call α)) (handle : Handle) (value : α) : Prop :=
  ∃ later earlier, calls = later ++ .inserted handle value :: earlier ∧ ∀ gone, .removed handle gone ∉ later

def Call.vacates (index : UInt32) : Call α → Bool
  | .removed handle _ => handle.index == index
  | .inserted .. | .refused _ => false

def vacated (calls : List (Call α)) (index : UInt32) : Nat := calls.countP (·.vacates index)

private theorem not_stands_nil : ¬ Stands ([] : List (Call α)) handle value := by
  rintro ⟨later, earlier, same, -⟩
  cases later <;> cases same

private theorem stands_cons : Stands (call :: calls) handle value ↔
    call = .inserted handle value ∨ (∀ gone, call ≠ .removed handle gone) ∧ Stands calls handle value := by
  constructor
  · rintro ⟨later, earlier, same, stays⟩
    cases later with
    | nil => exact .inl (List.cons.inj same).1
    | cons first rest =>
      obtain ⟨rfl, rfl⟩ := List.cons.inj same
      refine .inr ⟨fun gone same => stays gone (same ▸ List.mem_cons_self), rest, earlier, rfl, fun gone member => ?_⟩
      exact stays gone (List.mem_cons_of_mem _ member)
  · rintro (rfl | ⟨other, later, earlier, rfl, stays⟩)
    · exact ⟨[], calls, rfl, fun _ => List.not_mem_nil⟩
    · refine ⟨call :: later, earlier, rfl, fun gone member => ?_⟩
      rcases List.mem_cons.mp member with same | member
      · exact other gone same.symm
      · exact stays gone member

theorem Past.sound (past : Past calls arena) : arena.Sound := by
  induction past with
  | new => exact sound_empty
  | insert past done sound => exact sound.insert done
  | remove past done sound => exact sound.remove done
  | refuse past done sound => exact sound

/-- What a look-up finds is what the calls say. -/
theorem Past.find?_iff (past : Past calls arena) : arena.find? handle = some value ↔ Stands calls handle value := by
  induction past generalizing handle value with
  | new => exact ⟨fun found => by simp [find?, empty] at found, fun stands => absurd stands not_stands_nil⟩
  | @insert arena after calls given inserted past done ih =>
    rw [find?_insert done, stands_cons]
    by_cases same : handle = given
    · subst same
      have none : ¬ Stands calls handle value := fun stands => by
        cases (find?_of_insert done).symm.trans (ih.mpr stands)
      simp [none]
    · simp [same, Ne.symm same, ih]
  | @remove arena after calls gone removed past done ih =>
    rw [find?_remove done, stands_cons]
    by_cases same : handle = gone
    · simp [same]
    · simp [same, Ne.symm same, ih]
  | refuse past done ih =>
    rw [stands_cons, ih]
    simp

theorem Past.find?_none (past : Past calls arena) (fallen : ∀ held, ¬ Stands calls handle held) :
    arena.find? handle = none :=
  Option.eq_none_iff_forall_ne_some.mpr fun held found => fallen held (past.find?_iff.mp found)

/-- The generation of a slot; that of a slot which has not been made yet is the first. -/
def generationAt (arena : Arena α) (index : Nat) : UInt32 := ((arena.slotAt index).map (·.1)).getD 0

private theorem generationAt_of_live (live : arena.find? handle = some value) :
    arena.generationAt handle.index.toNat = handle.generation := by
  rw [generationAt, isSome_find?_iff.mp (by rw [live]; rfl)]
  rfl

theorem Fills.generationAt_eq (fills : Fills arena after handle) :
    arena.generationAt handle.index.toNat = handle.generation := by
  rcases fills.empty with empty | ⟨new, first⟩
  · rw [generationAt, empty]
    rfl
  · rw [generationAt, new, first]
    rfl

theorem Past.generationAt_eq (past : Past calls arena) (index : UInt32) :
    arena.generationAt index.toNat = UInt32.ofNat (vacated calls index) := by
  induction past with
  | new => rfl
  | insert past done ih =>
    have fills := fills_of_insert done
    rw [vacated, List.countP_cons_of_neg (by simp [Call.vacates]), generationAt, fills.slots]
    split
    next same => exact (UInt32.toNat_inj.mp same ▸ fills.generationAt_eq).symm.trans ih
    next => exact ih
  | @remove arena after calls gone removed past done ih =>
    obtain ⟨live, slots⟩ := empties_of_remove done
    rw [generationAt, slots]
    split
    next same =>
      obtain rfl := UInt32.toNat_inj.mp same
      rw [vacated, List.countP_cons_of_pos (by simp [Call.vacates]), UInt32.ofNat_add, ← vacated, ← ih,
        generationAt_of_live live]
      rfl
    next other =>
      have elsewhere : gone.index ≠ index := fun same => other (congrArg UInt32.toNat same.symm)
      rw [vacated, List.countP_cons_of_neg (by simpa [Call.vacates] using elsewhere)]
      exact ih
  | refuse past done ih => simpa [vacated, Call.vacates] using ih

theorem Past.of_append (past : Past (later ++ earlier) arena) : ∃ middle, Past earlier middle := by
  induction later generalizing arena with
  | nil => exact ⟨arena, past⟩
  | cons call later ih => cases past <;> exact ih ‹_›

theorem Past.given (past : Past (.inserted handle value :: calls) arena) :
    handle.generation = UInt32.ofNat (vacated calls handle.index) := by
  cases past with
  | insert past done => rw [← past.generationAt_eq, (fills_of_insert done).generationAt_eq]

/-- A handle has not been given out before, unless its slot's count has gone all the way round. -/
theorem Past.never (past : Past calls arena) (inserted : arena.insert value = .ok (handle, after))
    (few : vacated calls handle.index < UInt32.size) : .inserted handle held ∉ calls := by
  intro member
  obtain ⟨later, earlier, rfl⟩ := List.append_of_mem member
  obtain ⟨_, before⟩ := past.of_append
  have same : UInt32.ofNat (vacated (later ++ .inserted handle held :: earlier) handle.index) =
      UInt32.ofNat (vacated earlier handle.index) := (past.insert inserted).given.symm.trans before.given
  have sum : vacated (later ++ .inserted handle held :: earlier) handle.index =
      vacated later handle.index + vacated earlier handle.index := by
    rw [vacated, List.countP_append, List.countP_cons_of_neg (by simp [Call.vacates])]
    rfl
  -- Both counts are in the range of generations, so the slot has not been vacated between the two insertions.
  have none : vacated later handle.index = 0 := by
    have counts := congrArg UInt32.toNat same
    rw [UInt32.toNat_ofNat_of_lt' few, UInt32.toNat_ofNat_of_lt' (by omega)] at counts
    omega
  have stands : Stands (later ++ .inserted handle held :: earlier) handle held := by
    refine ⟨later, earlier, rfl, fun gone member => ?_⟩
    exact absurd (List.countP_eq_zero.mp none _ member) (by simp [Call.vacates])
  cases (find?_of_insert inserted).symm.trans (past.find?_iff.mpr stands)

/-- The arena is the finite map that the calls on it describe. -/
structure Maps (calls : List (Call α)) (arena : Arena α) : Prop where
  get : ∀ handle value, arena.get handle = .ok value ↔ Stands calls handle value
  get_stale : ∀ handle, (∀ value, ¬ Stands calls handle value) → arena.get handle = .error (.stale handle)
  remove : ∀ handle value, Stands calls handle value → ∃ after, arena.remove handle = .ok (value, after) ∧
    ∀ other ≠ handle, after.get other = arena.get other
  remove_stale : ∀ handle, (∀ value, ¬ Stands calls handle value) →
    arena.remove handle = .error (.refused (.stale handle))
  /-- No other stop: those for an occupied slot on the list of vacant ones, or for a vacant one where a live handle
  leads, never come. -/
  insert : ∀ value, (∃ handle after, arena.insert value = .ok (handle, after)) ∨
    arena.insert value = .error (.violated .arenaFull) ∧ arena.freeHead = none ∧ arena.slots.size = UInt32.size
  remove_answers : ∀ handle fault, arena.remove handle ≠ .error (.stopped fault)
  insert_fresh : ∀ value handle after, arena.insert value = .ok (handle, after) →
    (∀ held, ¬ Stands calls handle held) ∧
    (vacated calls handle.index < UInt32.size → ∀ held, .inserted handle held ∉ calls) ∧
    ∀ other ≠ handle, after.get other = arena.get other
  listed : ∀ handle value, (handle, value) ∈ arena.toList ↔ Stands calls handle value
  ascending : (arena.toList.map (·.1.index.toNat)).Pairwise (· < ·)
  counted : arena.count = arena.toList.length
  /-- The list that leads from one vacant slot to the next ends, and goes once through each of them and through no
  occupied one. -/
  vacant : ∃ indices, Free arena.slots arena.freeHead indices ∧ indices.Nodup ∧
    ∀ index, index ∈ indices ↔ ∃ generation nextFree, arena.slots[index.toNat]? = some (.vacant generation nextFree)

private theorem get_eq_ok : arena.get handle = .ok value ↔ arena.find? handle = some value := by
  unfold get Failure.ofOption
  cases arena.find? handle <;> simp

private theorem get_congr {other : Arena α} (same : other.find? handle = arena.find? handle) :
    other.get handle = arena.get handle := by
  rw [get, get, same]

/-- Whatever has been inserted and removed, an arena is a finite map from the handles that it has given out. -/
theorem Past.maps (past : Past calls arena) : Maps calls arena where
  get handle value := get_eq_ok.trans past.find?_iff
  get_stale handle fallen := by
    rw [Arena.get, past.find?_none fallen]
    rfl
  remove handle value stands := by
    obtain ⟨after, done⟩ := remove_of_live past.sound (past.find?_iff.mpr stands)
    refine ⟨after, done, fun other different => get_congr ?_⟩
    rw [find?_remove done, if_neg different]
  remove_stale handle fallen := by
    rw [Arena.remove, past.find?_none fallen]
  insert value := by
    cases answer : arena.insert value with
    | ok given => exact .inl ⟨given.1, given.2, rfl⟩
    | error fault =>
      obtain ⟨rfl, full⟩ := past.sound.insert_error answer
      exact .inr ⟨rfl, full⟩
  remove_answers handle fault stopped := by
    cases found : arena.find? handle with
    | none => simp [Arena.remove, found] at stopped
    | some value =>
      obtain ⟨after, done⟩ := remove_of_live past.sound found
      cases done.symm.trans stopped
  insert_fresh value handle after done := by
    refine ⟨fun held stands => ?_, fun few held => past.never done few, fun other different => get_congr ?_⟩
    · cases (find?_of_insert done).symm.trans (past.find?_iff.mpr stands)
    · rw [find?_insert done, if_neg different]
  listed handle value := (mem_toList past.sound.bounded).trans past.find?_iff
  ascending := ascending_toList past.sound.bounded
  counted := (length_toList past.sound).symm
  vacant := by
    obtain ⟨indices, lists⟩ := past.sound.listed
    exact ⟨indices, lists.free, lists.free.nodup, fun index => lists.mem_iff⟩

/-- Two slots are filled and vacated, and the one vacated last is filled again, in its next generation. -/
def refilling : List (Call Nat) :=
  [.inserted ⟨1, 1⟩ 7, .refused ⟨0, 0⟩, .removed ⟨1, 0⟩ 6, .removed ⟨0, 0⟩ 5, .inserted ⟨1, 0⟩ 6, .inserted ⟨0, 0⟩ 5]

/-- After the two removals both slots are on the list of vacant ones; the insertion leaves the other one there. -/
theorem Past.maps_refilled : ∃ arena, arena.freeHead = some 0 ∧ Past refilling arena ∧ Maps refilling arena := by
  have first : Past (refilling.drop 5) ⟨#[.occupied 0 5], none, 1⟩ := .insert .new rfl
  have filled : Past (refilling.drop 4) ⟨#[.occupied 0 5, .occupied 0 6], none, 2⟩ := first.insert rfl
  have opened : Past (refilling.drop 3) ⟨#[.vacant 1 none, .occupied 0 6], some 0, 1⟩ := filled.remove rfl
  have vacated : Past (refilling.drop 2) ⟨#[.vacant 1 none, .vacant 1 (some 0)], some 1, 0⟩ := opened.remove rfl
  have refused : Past (refilling.drop 1) ⟨#[.vacant 1 none, .vacant 1 (some 0)], some 1, 0⟩ := vacated.refuse rfl
  have refilled : Past refilling ⟨#[.vacant 1 none, .occupied 1 7], some 0, 1⟩ := refused.insert rfl
  exact ⟨_, rfl, refilled, refilled.maps⟩

end CallStacks.Frozen.Arena
