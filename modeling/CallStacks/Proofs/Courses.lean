import CallStacks.Proofs.PointerMoves
import CallStacks.Proofs.Sparing

/-! A chain on its way back. Its frames are resumed from the innermost out, while the program does whatever
it likes to other chains. The frames that are left follow each frame that leaves. -/

namespace CallStacks.Frozen
open Store

variable {store middle final : Store} {roster : Roster} {handles left : List Handle}
  {handle : Handle} {copies : List FrozenFrame} {copy : FrozenFrame} {shifts : List Shift}

/-- A chain of frames that were captured, with their pointers moved along so far. -/
structure Suspended (store : Store) (roster : Roster) (handles : List Handle) (copies : List FrozenFrame)
    (shifts : List Shift) : Prop where
  valid : Valid store roster
  chain : handles ≠ [] → handles ∈ roster.chains
  length : handles.length = copies.length
  held : ∀ handle copy, (handle, copy) ∈ handles.zip copies →
    ∃ current, store.arena.find? handle = some current ∧ Advanced shifts copy current

/-- Frames that can be moved: bytes are kept from the stack pointer up, and no two pointers overlap. -/
def FrozenFrame.Movable (frame : FrozenFrame) : Prop :=
  frame.layout.unrecorded = 0 ∧ frame.places.Pairwise Buffer.Apart

namespace Suspended

private theorem spared {next : Roster} (suspended : Suspended store roster handles copies shifts)
    (valid : Valid final next) (chain : handles ≠ [] → handles ∈ next.chains)
    (kept : Spared handles store final) : Suspended final next handles copies shifts := by
  refine ⟨valid, chain, suspended.length, fun handle copy within => ?_⟩
  obtain ⟨current, live, advanced⟩ := suspended.held handle copy within
  have same := kept handle (List.of_mem_zip within).1
  rw [live, Option.map_some, Option.map_eq_some_iff] at same
  obtain ⟨after, live', content⟩ := same
  exact ⟨after, live', advanced.congr content⟩

private theorem perform {freezer after : Freezer} {operation : Operation}
    (suspended : Suspended freezer.store roster handles copies shifts) (spares : operation.Spares handles)
    (done : freezer.perform operation = .ok after) :
    ∃ next, Suspended after.store next handles copies shifts := by
  obtain ⟨next, follows, valid⟩ := Freezer.perform_valid suspended.valid done
  refine ⟨next, suspended.spared valid (fun some => ?_) ?_⟩
  · exact Freezer.chain_of_follows suspended.valid (suspended.chain some) spares follows
  · cases handles with
    | nil => exact fun _ within => by simp at within
    | cons handle rest =>
      exact Freezer.perform_spared suspended.valid (suspended.chain (by simp)) spares done

/-- The innermost frame of the chain is resumed: it comes out with its pointers moved, and those of the
others follow. -/
theorem resume {sp : Word} {removed : FrozenFrame}
    (suspended : Suspended store roster (handle :: left) (copy :: copies) shifts)
    (movable : ∀ frame ∈ copy :: copies, frame.Movable)
    (thawed : Thawed store roster handle sp removed final) :
    Advanced (shifts ++ [copy.shiftTo sp]) copy removed ∧
      Suspended final (roster.without [handle]) left copies (shifts ++ [copy.shiftTo sp]) := by
  obtain ⟨before, after, frame, middle, member, live, swept, gone, _, content⟩ := thawed.moved
  have chain := suspended.chain (by simp)
  obtain ⟨fresh, distinct⟩ := List.nodup_cons.mp (suspended.valid.chain_distinct chain)
  -- the frame is the innermost of its chain
  have split := eq_of_shared suspended.valid.distinct member chain (show handle ∈ _ by simp) List.mem_cons_self
  obtain ⟨rfl, rfl⟩ : before = [] ∧ after = left := by
    cases before with
    | nil => exact ⟨rfl, (List.cons.inj split).2⟩
    | cons first rest =>
      obtain ⟨rfl, same⟩ := List.cons.inj split
      exact absurd (same ▸ by simp : first ∈ left) fresh
  obtain ⟨current, live', advanced⟩ := suspended.held handle copy (by simp)
  obtain rfl : frame = current := Option.some.inj (live.symm.trans live')
  rw [advanced.shiftTo] at swept
  have follows : ∀ other frame, (other, frame) ∈ (handle :: after).zip (copy :: copies) →
      ∃ moved, middle.arena.find? other = some moved ∧ Advanced (shifts ++ [copy.shiftTo sp]) frame moved := by
    intro other frame within
    obtain ⟨inside, also⟩ := List.of_mem_zip within
    obtain ⟨old, known, advanced⟩ := suspended.held other frame within
    obtain ⟨old', moved, known', ran, now⟩ := swept.each other inside
    obtain rfl : old = old' := Option.some.inj (known.symm.trans known')
    exact ⟨moved, now, advanced.sweep (movable frame also).1 (movable frame also).2 ran⟩
  refine ⟨?_, thawed.valid, fun some => ?_, Nat.succ.inj suspended.length, fun other frame within => ?_⟩
  · obtain ⟨moved, now, advanced⟩ := follows handle copy (by simp)
    rw [now, Option.map_some, Option.some.injEq] at gone
    exact advanced.congr gone.symm
  · rw [Roster.chains_without, mem_thinned]
    refine ⟨some, handle :: after, chain, ?_⟩
    rw [List.filter_cons_of_neg (by simp), filter_apart fresh]
  · obtain ⟨moved, now, advanced⟩ := follows other frame (List.mem_cons_of_mem _ within)
    have different : other ≠ handle := fun same => fresh (same ▸ (List.of_mem_zip within).1)
    have same := content other different
    rw [now, Option.map_some, Option.map_eq_some_iff] at same
    obtain ⟨after, known, content⟩ := same
    exact ⟨after, known, advanced.congr content⟩

theorem resume_run {freezer : Freezer} {value : ResumeValue} {landing : Landing} {memory : Memory}
    (suspended : Suspended freezer.store roster (handle :: left) (copy :: copies) shifts)
    (movable : ∀ frame ∈ copy :: copies, frame.Movable)
    (closed : copy.layout.reloads.getLast?.any (·.tag.endsList) = true)
    (room : landing.sp.toNat + copy.layout.returnOffset.toNat < UInt64.size) :
    ∃ resumption after, freezer.resume handle value landing memory = .ok (resumption, after) := by
  have chain := suspended.chain (by simp)
  have ready : ∀ other ∈ handle :: left, ∀ frame, freezer.store.arena.find? other = some frame → frame.Ready := by
    intro other within frame live
    have names : ((handle :: left).zip (copy :: copies)).map Prod.fst = handle :: left :=
      List.map_fst_zip (Nat.le_of_eq suspended.length)
    rw [← names] at within
    obtain ⟨⟨other, source⟩, zipped, rfl⟩ := List.mem_map.mp within
    obtain ⟨current, known, advanced⟩ := suspended.held other source zipped
    obtain rfl : frame = current := Option.some.inj (live.symm.trans known)
    exact advanced.ready (movable source (List.of_mem_zip zipped).2).1
  have first : [] ++ handle :: left ∈ roster.chains := chain
  obtain ⟨removed, store, prepared⟩ := prepare_run landing.sp suspended.valid first ready
  have thawed := prepare_spec suspended.valid prepared
  obtain ⟨advanced, _⟩ := suspended.resume movable thawed
  rw [← advanced.layout] at closed room
  obtain ⟨⟨reloads, finish, memory'⟩, spliced⟩ := FrozenFrame.splice_run value landing memory closed room
  have ran : freezer.run (StoreM.prepare handle landing.sp) = .ok (removed, { freezer with store }) :=
    Freezer.run_eq_ok.mpr ⟨store, prepared, rfl⟩
  refine ⟨⟨reloads, finish, memory'⟩, { freezer with store, restored := freezer.restored + 1 }, ?_⟩
  unfold Freezer.resume
  simp only [ran, spliced, CallStacks.Failure.ofStop, bind, Except.bind, pure, Except.pure]

end Suspended

/-- A run in which the frames of a chain are resumed from the innermost out, each at a place of its own,
and are spared otherwise. Gives the places, and the frames that are left. -/
inductive Course (start : Freezer) (handles : List Handle) : List Word → Freezer → List Handle → Prop
  | still : Course start handles [] start handles
  | meanwhile {landed : List Word} {current after : Freezer} {left : List Handle} (operation : Operation)
      (past : Course start handles landed current left) (spares : operation.Spares left)
      (done : current.perform operation = .ok after) : Course start handles landed after left
  | resume {landed : List Word} {current after : Freezer} {handle : Handle} {left : List Handle}
      {value : ResumeValue} {landing : Landing} {memory : Memory} {resumption : Freezer.Resumption}
      (past : Course start handles landed current (handle :: left))
      (done : current.resume handle value landing memory = .ok (resumption, after)) :
      Course start handles (landed ++ [landing.sp]) after left

def moves (copies : List FrozenFrame) (landed : List Word) : List Shift :=
  List.zipWith FrozenFrame.shiftTo copies landed

private theorem moves_concat {gone : List FrozenFrame} {landed : List Word} {sp : Word}
    (length : gone.length = landed.length) :
    moves (gone ++ [copy]) (landed ++ [sp]) = moves gone landed ++ [copy.shiftTo sp] := by
  rw [moves, List.zipWith_append length]
  rfl

/-- In the course of such a run the frames that are left have followed exactly those that are gone. -/
theorem Course.suspended {start current : Freezer} {landed : List Word}
    (suspended : Suspended start.store roster handles copies []) (movable : ∀ frame ∈ copies, frame.Movable)
    (course : Course start handles landed current left) :
    ∃ gone rest next, copies = gone ++ rest ∧ gone.length = landed.length ∧
      Suspended current.store next left rest (moves gone landed) := by
  induction course with
  | still => exact ⟨[], copies, roster, rfl, rfl, suspended⟩
  | meanwhile operation _ spares done ih =>
    obtain ⟨gone, rest, next, split, length, now⟩ := ih
    obtain ⟨later, after⟩ := now.perform spares done
    exact ⟨gone, rest, later, split, length, after⟩
  | @resume landed current after handle left value landing memory resumption _ done ih =>
    obtain ⟨gone, rest, next, rfl, length, now⟩ := ih
    cases rest with
    | nil => cases now.length
    | cons copy rest =>
      obtain ⟨removed, thawed, _⟩ := Freezer.resume_spec now.valid done
      obtain ⟨_, after⟩ := now.resume (fun frame within => movable frame (List.mem_append_right _ within)) thawed
      refine ⟨gone ++ [copy], rest, next.without [handle], by simp, by simp [length], ?_⟩
      rw [moves_concat length]
      exact after

end CallStacks.Frozen
