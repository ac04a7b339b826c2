import CallStacks.Proofs.CaptureWalk
import CallStacks.Proofs.OperationRuns
import CallStacks.Proofs.RosterChanges

/-! A plain machine of chains. Its states are rosters and its moves rearrange them, with no links, no ring and
no arena. The store is meant to be this machine. -/

namespace CallStacks.Frozen

namespace Roster

/-- One chain has been cut down to what is kept of it, in its place. -/
inductive Cuts (roster : Roster) (whole kept : List Handle) : Roster → Prop
  | registered {first last : List (List Handle)} (split : roster.registered = first ++ whole :: last) :
      Cuts roster whole kept ⟨first ++ remnant kept ++ last, roster.hidden⟩
  | hidden {first last : List (List Handle)} (split : roster.hidden = first ++ whole :: last) :
      Cuts roster whole kept ⟨roster.registered, first ++ remnant kept ++ last⟩

/-- The moves of the plain machine. Looking after floors and bytes is none of its business. -/
inductive Moves (roster : Roster) : Operation → Roster → Prop
  | capture {memory : Memory} {place : Nat → Word} {frames : List LiveFrame} {limit : Word} (handles : List Handle)
      (counted : handles.length = (suspended frames).length) (distinct : handles.Nodup)
      (fresh : ∀ handle ∈ handles, handle ∉ roster.members) :
      Moves roster (.capture memory place frames limit) ⟨roster.registered, remnant handles ++ roster.hidden⟩
  | register {before : List Handle} {head : Handle} {first last : List (List Handle)}
      (split : roster.hidden = first ++ (before ++ [head]) :: last) :
      Moves roster (.register head) ⟨(before ++ [head]) :: roster.registered, first ++ last⟩
  | unregister {before : List Handle} {head : Handle} {first last : List (List Handle)}
      (split : roster.registered = first ++ (before ++ [head]) :: last) :
      Moves roster (.unregister head) ⟨first ++ last, (before ++ [head]) :: roster.hidden⟩
  | delete {before after : List Handle} {handle : Handle} {next : Roster}
      (cuts : roster.Cuts (before ++ handle :: after) (before ++ after) next) : Moves roster (.delete handle) next
  | deleteChain {before above : List Handle} {head : Handle} {next : Roster}
      (cuts : roster.Cuts (before ++ head :: above) above next) : Moves roster (.deleteChain head) next
  | resume {before after : List Handle} {handle : Handle} {value : ResumeValue} {landing : Landing} {memory : Memory}
      {next : Roster} (cuts : roster.Cuts (before ++ handle :: after) (before ++ after) next) :
      Moves roster (.resume handle value landing memory) next
  | collect {σ : Type} (visit : Visitor σ) (condemned : Generation) (state : σ) :
      Moves roster (.collect visit condemned state) roster
  | age (condemned oldest : Generation) : Moves roster (.age condemned oldest) roster
  | rejuvenate (heap : Word → Generation) (condemned oldest : Generation) :
      Moves roster (.rejuvenate heap condemned oldest) roster
  | enterQuietScope : Moves roster .enterQuietScope roster
  | leaveQuietScope : Moves roster .leaveQuietScope roster

end Roster

/-- The operation concerns single chains, and this is none of them. -/
def Operation.Elsewhere (operation : Operation) (chain : List Handle) : Prop :=
  match operation with
  | .register handle | .unregister handle | .delete handle | .deleteChain handle | .resume handle _ _ _ =>
    handle ∉ chain
  | .capture _ _ _ _ | .enterQuietScope | .leaveQuietScope => True
  | .collect _ _ _ | .age _ _ | .rejuvenate _ _ _ => False

namespace Roster

variable {roster next : Roster} {chain whole kept before gone : List Handle} {head : Handle} {operation : Operation}

theorem Cuts.other (cuts : roster.Cuts whole kept next) (different : chain ≠ whole) :
    (chain ∈ roster.registered → chain ∈ next.registered) ∧ (chain ∈ roster.hidden → chain ∈ next.hidden) := by
  have moved : ∀ {first last : List (List Handle)}, chain ∈ first ++ whole :: last →
      chain ∈ first ++ remnant kept ++ last := by
    intro first last member
    simp only [List.mem_append, List.mem_cons, different, false_or] at member ⊢
    exact member.imp .inl id
  cases cuts with
  | registered split => exact ⟨fun member => moved (split ▸ member), id⟩
  | hidden split => exact ⟨id, fun member => moved (split ▸ member)⟩

theorem Moves.other (moves : roster.Moves operation next) (elsewhere : operation.Elsewhere chain) :
    (chain ∈ roster.registered → chain ∈ next.registered) ∧ (chain ∈ roster.hidden → chain ∈ next.hidden) := by
  have away : ∀ {handle : Handle} {inner outer : List Handle}, handle ∉ chain → chain ≠ inner ++ handle :: outer := by
    rintro handle inner outer outside rfl
    simp at outside
  cases moves with
  | capture handles => exact ⟨id, List.mem_append_right _⟩
  | register split =>
    refine ⟨List.mem_cons_of_mem _, fun member => ?_⟩
    rw [split] at member
    simpa only [List.mem_append, List.mem_cons, away elsewhere, false_or] using member
  | unregister split =>
    refine ⟨fun member => ?_, List.mem_cons_of_mem _⟩
    rw [split] at member
    simpa only [List.mem_append, List.mem_cons, away elsewhere, false_or] using member
  | delete cuts => exact cuts.other (away elsewhere)
  | deleteChain cuts => exact cuts.other (away elsewhere)
  | resume cuts => exact cuts.other (away elsewhere)
  | collect => exact elsewhere.elim
  | age => exact elsewhere.elim
  | rejuvenate => exact elsewhere.elim
  | enterQuietScope => exact ⟨id, id⟩
  | leaveQuietScope => exact ⟨id, id⟩

theorem add_eq (roster : Roster) (handles : List Handle) :
    roster.add handles = ⟨roster.registered, remnant handles ++ roster.hidden⟩ := by
  unfold add remnant
  split <;> rfl

theorem reveal_eq (distinct : roster.members.Nodup) {first last : List (List Handle)}
    (split : roster.hidden = first ++ (before ++ [head]) :: last) :
    roster.reveal head = ⟨(before ++ [head]) :: roster.registered, first ++ last⟩ := by
  have apart := (distinct_parts distinct).2
  have member : before ++ [head] ∈ roster.hidden := by simp [split]
  rw [reveal, filter_ledBy apart member]
  rw [split] at apart ⊢
  rw [filter_not_ledBy apart]
  rfl

theorem conceal_eq (distinct : roster.members.Nodup) {first last : List (List Handle)}
    (split : roster.registered = first ++ (before ++ [head]) :: last) :
    roster.conceal head = ⟨first ++ last, (before ++ [head]) :: roster.hidden⟩ := by
  have apart := (distinct_parts distinct).1
  have member : before ++ [head] ∈ roster.registered := by simp [split]
  rw [conceal, filter_ledBy apart member]
  rw [split] at apart ⊢
  rw [filter_not_ledBy apart]
  rfl

theorem cuts_without (distinct : roster.members.Nodup) (inhabited : ∀ chain ∈ roster.chains, chain ≠ [])
    (member : whole ∈ roster.chains) (within : ∀ handle ∈ gone, handle ∈ whole)
    (left : whole.filter (· ∉ gone) = kept) : roster.Cuts whole kept (roster.without gone) := by
  have parts := distinct_parts distinct
  rcases List.mem_append.mp member with inside | inside
  · have hidden : thinned gone roster.hidden = roster.hidden :=
      thinned_of_other (List.perm_append_comm.flatten.nodup distinct)
        (fun chain other => inhabited chain (List.mem_append_right _ other)) inside within
    have full : ∀ chain ∈ roster.registered, chain ≠ [] := fun chain other => inhabited chain (List.mem_append_left _ other)
    obtain ⟨first, last, split⟩ := List.append_of_mem inside
    rw [without, hidden, split, thinned_of_split (split ▸ parts.1) (split ▸ full) within, left]
    exact .registered split
  · have registered : thinned gone roster.registered = roster.registered :=
      thinned_of_other distinct (fun chain other => inhabited chain (List.mem_append_left _ other)) inside within
    have full : ∀ chain ∈ roster.hidden, chain ≠ [] := fun chain other => inhabited chain (List.mem_append_right _ other)
    obtain ⟨first, last, split⟩ := List.append_of_mem inside
    rw [without, registered, split, thinned_of_split (split ▸ parts.2) (split ▸ full) within, left]
    exact .hidden split

end Roster
end CallStacks.Frozen
