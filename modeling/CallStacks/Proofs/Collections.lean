import CallStacks.Proofs.Reachability

/-! Collections in the course of a program. What a collection shows to its visitor is read off the
frames themselves, whatever led to them. -/

namespace CallStacks.Frozen
open Store

namespace Roster

variable {roster : Roster} {handle : Handle}

/-- The registered frames in the order of a collection: the last registered chain first, and each
chain from its head down. -/
def scanned (roster : Roster) : List Handle := roster.registered.flatMap List.reverse

theorem mem_scanned : handle ∈ roster.scanned ↔ handle ∈ roster.registered.flatten := by
  simp only [scanned, List.mem_flatMap, List.mem_reverse, List.mem_flatten]

private theorem not_hidden_of_scanned (distinct : roster.members.Nodup) (within : handle ∈ roster.scanned) :
    handle ∉ roster.hidden.flatten :=
  not_hidden_of_registered distinct (mem_scanned.mp within)

end Roster

namespace Store

theorem owner_of_due {store : Store} {condemned : Generation} {handles : List Handle} {handle : Handle}
    {root : Root} (within : (handle, root) ∈ store.due condemned handles) : handle ∈ handles := by
  obtain ⟨other, member, shown⟩ := List.mem_flatMap.mp within
  have same : handle = other := by
    unfold dueOf at shown
    split at shown
    · simp at shown
    · split at shown
      · simp only [List.mem_append, List.mem_map, Prod.mk.injEq] at shown
        rcases shown with ⟨_, _, same, _⟩ | ⟨_, _, same, _⟩
        · exact same.symm
        · exact same.symm
      · simp at shown
  exact same ▸ member

end Store

namespace Freezer

variable {freezer after : Freezer}

/-- A collection reports every slot of every registered chain that may refer to a condemned
generation, and nothing else. -/
theorem Reachable.collect_reports {σ : Type} {visit : Visitor σ} {condemned : Generation} {state last : σ}
    {count : Nat} (reachable : Reachable freezer)
    (done : freezer.collect visit condemned state = .ok ((count, last), after)) :
    ∃ roster, History freezer roster ∧ Represents freezer.store roster ∧
      ∃ reports : List RootSlot,
        reports.map (fun slot => (slot.owner, slot.root)) =
          freezer.store.due condemned roster.scanned ∧
        count = reports.length ∧ last = visit.told state reports ∧
        (∀ slot ∈ reports, slot.owner ∈ roster.registered.flatten ∧ slot.owner ∉ roster.hidden.flatten) ∧
        Undisturbed FrozenFrame.offBytes freezer.store after.store ∧
        (visit.Silent → after = freezer ∧ ∀ slot ∈ reports, freezer.store.Holds slot) := by
  obtain ⟨roster, history, valid⟩ := reachable.history
  obtain ⟨reported, rest⟩ := collect_spec valid done
  obtain ⟨reports, slots, answer, held⟩ := reported.reports
  obtain ⟨rfl, rfl⟩ := Prod.mk.inj answer
  refine ⟨roster, history, valid.toRepresents, reports, slots, Nat.zero_add _, rfl, ?_, reported.kept, ?_⟩
  · intro slot within
    have shown : (slot.owner, slot.root) ∈ freezer.store.due condemned roster.scanned :=
      slots ▸ List.mem_map_of_mem within
    have seen := owner_of_due shown
    exact ⟨Roster.mem_scanned.mp seen, Roster.not_hidden_of_scanned valid.distinct seen⟩
  · intro silent
    rw [reported.silent silent] at rest
    exact ⟨rest, held silent⟩

def noting : Visitor (List RootSlot) := fun slot => do
  modify (· ++ [slot])
  return none

theorem Reachable.collect_reports_sample : ∃ reports after,
    sample.collect noting 0 [] = .ok ((2, noting.told [] reports), after) ∧ after = sample ∧
      reports.length = 2 ∧ ∀ slot ∈ reports, sample.store.Holds slot := by
  have counted : (sample.collect noting 0 []).map (·.1.1) = .ok 2 := by decide +kernel
  obtain ⟨⟨⟨count, last⟩, after⟩, done, rfl⟩ := CallStacks.Failure.map_eq_ok.mp counted
  obtain ⟨_, _, _, reports, _, same, rfl, _, _, quiet⟩ := reachable_sample.collect_reports done
  have silent : noting.Silent := fun _ _ _ _ => rfl
  exact ⟨reports, after, done, (quiet silent).1, same.symm, (quiet silent).2⟩

end Freezer
end CallStacks.Frozen
