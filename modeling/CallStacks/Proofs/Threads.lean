import CallStacks.Frozen.Handle

/-! Doubly linked lists of handles. What the members know of their neighbours is compared with a
plain list, and every change of links that the store makes is a change of that list. -/

namespace CallStacks.Frozen

/-- What a member of a doubly linked list knows: its neighbours on either side. -/
structure Ends where
  before : Option Handle
  after : Option Handle

def Ends.swap (ends : Ends) : Ends := ⟨ends.after, ends.before⟩

/-- Every member of the list knows exactly its neighbours in the list. -/
def Threaded (ends : Handle → Option Ends) (list : List Handle) : Prop :=
  ∀ before member after, list = before ++ member :: after →
    ends member = some ⟨before.getLast?, after.head?⟩

namespace Threaded

variable {ends updated : Handle → Option Ends} {list before after : List Handle} {handle : Handle}

theorem nil : Threaded ends [] := by
  intro before member after same
  simp at same

theorem congr (threaded : Threaded ends list)
    (same : ∀ member ∈ list, updated member = ends member) : Threaded updated list := by
  intro before member after split
  rw [same member (by simp [split])]
  exact threaded before member after split

theorem singleton (alone : ends handle = some ⟨none, none⟩) : Threaded ends [handle] := by
  intro before member after same
  cases before with
  | nil =>
    obtain ⟨rfl, rfl⟩ := List.cons.inj same
    simpa using alone
  | cons first rest => simp at same

theorem reverse (threaded : Threaded ends list) :
    Threaded (fun member => (ends member).map Ends.swap) list.reverse := by
  intro before member after split
  have turned : list = after.reverse ++ member :: before.reverse := by
    rw [← List.reverse_reverse list, split]
    simp
  simp [threaded _ _ _ turned, Ends.swap]

private theorem getLast?_iff {first rest : List Handle} {member : Handle}
    (distinct : (first ++ member :: rest).Nodup) :
    (first ++ member :: rest).getLast? = some member ↔ rest = [] := by
  constructor
  · intro last
    cases rest with
    | nil => rfl
    | cons next others =>
      have within : member ∈ next :: others := by
        apply List.mem_of_getLast?
        simpa using last
      exact absurd within (List.nodup_cons.mp (List.nodup_append.mp distinct).2.1).1
  · rintro rfl
    simp

private theorem head?_iff {first rest : List Handle} {member : Handle}
    (distinct : (first ++ member :: rest).Nodup) :
    (first ++ member :: rest).head? = some member ↔ first = [] := by
  constructor
  · intro start
    cases first with
    | nil => rfl
    | cons next others =>
      have same : next = member := by simpa using start
      exact absurd same ((List.nodup_append.mp distinct).2.2 next (by simp) member (by simp))
  · rintro rfl
    simp

private theorem not_last (distinct : (before ++ after).Nodup) (member : Handle)
    (within : member ∈ after) : before.getLast? ≠ some member := fun last =>
  (List.nodup_append.mp distinct).2.2 member (List.mem_of_getLast? last) member within rfl

private theorem not_first (distinct : (before ++ after).Nodup) (member : Handle)
    (within : member ∈ before) : after.head? ≠ some member := fun first =>
  (List.nodup_append.mp distinct).2.2 member within member (List.mem_of_head? first) rfl

/-- Neighbours that close up over a member leave the list without it. -/
theorem remove (threaded : Threaded ends (before ++ handle :: after))
    (distinct : (before ++ after).Nodup)
    (closed : ∀ member ∈ before ++ after, updated member = (ends member).map fun known =>
      ⟨if after.head? = some member then before.getLast? else known.before,
        if before.getLast? = some member then after.head? else known.after⟩) :
    Threaded updated (before ++ after) := by
  intro first member rest split
  rw [closed member (by simp [split])]
  obtain ⟨left, right, _⟩ := List.nodup_append.mp distinct
  rcases List.append_eq_append_iff.mp split with ⟨gap, rfl, rfl⟩ | ⟨_ | ⟨same, gap⟩, rfl, tail⟩
  · -- the member lies behind the gap that closes
    rw [threaded (before ++ handle :: gap) member rest (by simp)]
    have other := not_last distinct member (by simp)
    have ahead := head?_iff right
    cases gap with
    | nil => simp [other]
    | cons next others =>
      have apart : next ≠ member := by simpa using ahead
      simp [other, apart]
  · obtain rfl : after = member :: rest := by simpa using tail.symm
    rw [threaded (first ++ [handle]) member rest (by simp)]
    have other : first.getLast? ≠ some member := by
      simpa using not_last distinct member (by simp)
    simp [other]
  · -- the member lies before the gap
    obtain ⟨rfl, rfl⟩ := List.cons.inj tail
    rw [threaded first member (gap ++ handle :: after) (by simp)]
    have other := not_first distinct member (by simp)
    have behind := getLast?_iff left
    cases gap with
    | nil => simp [other]
    | cons next others => simp [other, show (next :: others).getLast? ≠ some member by simpa using behind]

theorem replace {new : Handle} (threaded : Threaded ends (before ++ handle :: after))
    (distinct : (before ++ after).Nodup)
    (placed : updated new = some ⟨before.getLast?, after.head?⟩)
    (linked : ∀ member ∈ before ++ after, updated member = (ends member).map fun known =>
      ⟨if after.head? = some member then some new else known.before,
        if before.getLast? = some member then some new else known.after⟩) :
    Threaded updated (before ++ new :: after) := by
  intro first member rest split
  obtain ⟨left, right, _⟩ := List.nodup_append.mp distinct
  rcases List.append_eq_append_iff.mp split with ⟨_ | ⟨same, gap⟩, rfl, tail⟩ | ⟨_ | ⟨same, gap⟩, rfl, tail⟩
  · obtain ⟨rfl, rfl⟩ := List.cons.inj tail
    simpa using placed
  · -- the member lies behind the new one
    obtain ⟨rfl, rfl⟩ := List.cons.inj tail
    rw [linked member (by simp), threaded (before ++ handle :: gap) member rest (by simp)]
    have other := not_last distinct member (by simp)
    have ahead := head?_iff right
    cases gap with
    | nil => simp [other]
    | cons next others =>
      have apart : next ≠ member := by simpa using ahead
      simp [other, apart]
  · obtain ⟨rfl, rfl⟩ := List.cons.inj tail
    simpa using placed
  · -- the member lies before the new one
    obtain ⟨rfl, rfl⟩ := List.cons.inj tail
    rw [linked member (by simp), threaded first member (gap ++ handle :: after) (by simp)]
    have other := not_first distinct member (by simp)
    have behind := getLast?_iff left
    cases gap <;> simp_all

theorem push (threaded : Threaded ends list) (distinct : list.Nodup)
    (joined : updated handle = some ⟨none, list.head?⟩)
    (linked : ∀ member ∈ list, updated member = (ends member).map fun known =>
      ⟨if list.head? = some member then some handle else known.before, known.after⟩) :
    Threaded updated (handle :: list) := by
  intro before member after split
  cases before with
  | nil =>
    obtain ⟨rfl, rfl⟩ := List.cons.inj split
    simpa using joined
  | cons first rest =>
    obtain ⟨rfl, rfl⟩ := List.cons.inj split
    rw [linked member (by simp), threaded rest member after rfl]
    have ahead := head?_iff distinct
    cases rest <;> simp_all

theorem append (threaded : Threaded ends list) (distinct : list.Nodup)
    (joined : updated handle = some ⟨list.getLast?, none⟩)
    (linked : ∀ member ∈ list, updated member = (ends member).map fun known =>
      ⟨known.before, if list.getLast? = some member then some handle else known.after⟩) :
    Threaded updated (list ++ [handle]) := by
  have turned : Threaded (fun member => (updated member).map Ends.swap) (handle :: list.reverse) := by
    apply threaded.reverse.push (List.pairwise_reverse.mpr (distinct.imp Ne.symm))
    · simp [joined, Ends.swap]
    · intro member within
      rw [linked member (List.mem_reverse.mp within)]
      cases ends member <;> simp [Ends.swap]
  have back := turned.reverse
  simp only [List.reverse_cons, List.reverse_reverse] at back
  apply back.congr
  intro member _
  cases updated member <;> simp [Ends.swap]

end Threaded
end CallStacks.Frozen
