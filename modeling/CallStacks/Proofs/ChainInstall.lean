import Mathlib.Data.List.Forall2
import CallStacks.Frozen.Capture
import CallStacks.Proofs.RosterChanges

/-! How captured frames become a chain. They are put into the arena one after another and then joined
from the innermost on, so that a chain grows at its caller side while the frames to come are alone. -/

namespace CallStacks.Frozen

theorem Chain.leads_of_of? {handles : List Handle} {chain : Chain} (named : Chain.of? handles = some chain) :
    ∃ inner, handles = inner ++ [chain.head] ∧ chain.innermost ∈ handles := by
  unfold Chain.of? at named
  split at named
  next first last began led =>
    cases named
    obtain ⟨inner, rfl⟩ := List.getLast?_eq_some_iff.mp led
    exact ⟨inner, rfl, List.mem_of_head? began⟩
  next => cases named

namespace Store

variable {store final : Store} {frames : List FrozenFrame} {handles : List Handle}
  {frame : FrozenFrame} {handle callee caller : Handle}

structure Inserted (frames : List FrozenFrame) (handles : List Handle) (store final : Store) : Prop where
  held : List.Forall₂ (fun handle frame => final.arena.find? handle = some frame) handles frames
  fresh : ∀ handle ∈ handles, store.arena.find? handle = none
  distinct : handles.Nodup
  others : ∀ other, other ∉ handles → final.arena.find? other = store.arena.find? other
  sound : store.arena.Sound → final.arena.Sound
  anchor : final.anchor = store.anchor
  registered : final.registered = store.registered

theorem held_of_mem {β : Type} {relation : Handle → β → Prop} {items : List β}
    (held : List.Forall₂ relation handles items) (within : handle ∈ handles) :
    ∃ item ∈ items, relation handle item := by
  induction held with
  | nil => cases within
  | cons first _ ih =>
    rcases List.mem_cons.mp within with rfl | within
    · exact ⟨_, by simp, first⟩
    · obtain ⟨item, member, related⟩ := ih within
      exact ⟨item, by simp [member], related⟩

theorem insert_spec (done : StoreM.insert frame store = .ok handle final) :
    Inserted [frame] [handle] store final := by
  obtain ⟨arena, inserted, rfl⟩ := StoreM.insert_eq_ok.mp done
  have found := Arena.find?_insert inserted
  refine ⟨.cons (by simp [found]) .nil, by simpa using Arena.find?_of_insert inserted, by simp,
    fun other different => ?_, fun sound => sound.insert inserted, rfl, rfl⟩
  rw [found, if_neg (by simpa using different)]

theorem mapM_insert_spec (done : frames.mapM StoreM.insert store = .ok handles final) :
    Inserted frames handles store final := by
  induction frames generalizing handles store with
  | nil =>
    obtain ⟨rfl, rfl⟩ := EStateM.pure_eq_ok.mp done
    exact ⟨.nil, by simp, by simp, fun _ _ => rfl, id, rfl, rfl⟩
  | cons frame rest ih =>
    rw [List.mapM_cons] at done
    obtain ⟨handle, middle, first, done⟩ := EStateM.bind_eq_ok.mp done
    obtain ⟨others, last, more, done⟩ := EStateM.bind_eq_ok.mp done
    obtain ⟨rfl, rfl⟩ := EStateM.pure_eq_ok.mp done
    have one := insert_spec first
    have later := ih more
    have held : middle.arena.find? handle = some frame := by
      cases one.held with
      | cons held _ => exact held
    have apart : handle ∉ others := by
      intro within
      have none := later.fresh handle within
      rw [held] at none
      cases none
    refine ⟨.cons ?_ later.held, fun other within => ?_, List.nodup_cons.mpr ⟨apart, later.distinct⟩,
      fun other outside => ?_, later.sound ∘ one.sound, later.anchor.trans one.anchor,
      later.registered.trans one.registered⟩
    · rw [later.others handle apart, held]
    · rcases List.mem_cons.mp within with rfl | within
      · exact one.fresh other (by simp)
      · have different : other ∉ [handle] := by
          simpa using fun same : other = handle => apart (same ▸ within)
        rw [← one.others other different, later.fresh other within]
    · simp only [List.mem_cons, not_or] at outside
      rw [later.others other outside.2, one.others other (by simpa using outside.1)]

private theorem join_run (liveCallee : (store.arena.find? callee).isSome)
    (liveCaller : (store.arena.find? caller).isSome) :
    ∃ final, StoreM.join callee caller store = .ok () final ∧
      Altered (fun other frame => { frame with
        caller := if other = callee then some caller else frame.caller
        callee := if other = caller then some callee else frame.callee }) store final := by
  obtain ⟨one, ranOne, altered⟩ := StoreM.changeFrame_run liveCallee ({ · with caller := some caller })
  obtain ⟨two, ranTwo, altered'⟩ := StoreM.changeFrame_run
    (show (one.arena.find? caller).isSome by rw [altered.frames, Option.isSome_map]; exact liveCaller)
    ({ · with callee := some callee })
  refine ⟨two, ?_, (altered.trans altered').congr fun other frame => ?_⟩
  · unfold StoreM.join
    rw [EStateM.bind_of_ok ranOne]
    exact ranTwo
  · split <;> split <;> rfl

/-- Joining goes from the innermost frame out; the frames to come are alone. -/
theorem joinAll_run {done rest : List Handle} {last : Handle}
    (threaded : Threaded store.chainEnds (done ++ [last])) (distinct : (done ++ last :: rest).Nodup)
    (alone : ∀ other ∈ rest, store.chainEnds other = some ⟨none, none⟩) :
    ∃ final, StoreM.joinAll (last :: rest) store = .ok () final ∧
      Threaded final.chainEnds (done ++ last :: rest) ∧
      Undisturbed FrozenFrame.offChain store final ∧
      ∀ other, other ∉ last :: rest → final.arena.find? other = store.arena.find? other := by
  induction rest generalizing done last store with
  | nil => exact ⟨store, rfl, threaded, .refl store, fun _ _ => rfl⟩
  | cons next rest ih =>
    obtain ⟨frame, live, _⟩ := Option.map_eq_some_iff.mp (alone next (by simp))
    obtain ⟨middle, ran, altered⟩ := join_run
      (live_of_threaded threaded (show last ∈ done ++ [last] by simp))
      (show (store.arena.find? next).isSome by simp [live])
    have ends : ∀ other, middle.chainEnds other = (store.chainEnds other).map fun known =>
        ⟨if other = next then some last else known.before,
          if other = last then some next else known.after⟩ := by
      intro other
      simp only [chainEnds, altered.frames, Option.map_map]
      rfl
    have spread : (done ++ [last]) ++ next :: rest = done ++ last :: next :: rest := by simp
    rw [← spread] at distinct
    obtain ⟨fresh, _⟩ := List.nodup_cons.mp (List.nodup_middle.mp distinct)
    simp only [List.mem_append, not_or] at fresh
    have ahead : last ≠ next := fun same => fresh.1.2 (by simp [same])
    have longer : Threaded middle.chainEnds ((done ++ [last]) ++ [next]) := by
      apply threaded.append (List.nodup_append.mp distinct).1
      · simp [ends, alone next, Ne.symm ahead]
      · intro member within
        have different : member ≠ next := by
          rintro rfl
          exact (List.mem_append.mp within).elim fresh.1.1 fresh.1.2
        rw [ends]
        simp [different, eq_comm]
    obtain ⟨final, ranRest, threaded', kept, others⟩ := ih longer (by simpa using distinct) fun other within => by
      have notNext : other ≠ next := fun same => fresh.2 (same ▸ within)
      have notLast : other ≠ last := by
        rintro rfl
        exact (List.nodup_append.mp distinct).2.2 other (by simp) other (by simp [within]) rfl
      simp [ends, alone other (by simp [within]), notNext, notLast]
    refine ⟨final, ?_, spread ▸ threaded', (altered.undisturbed fun _ _ => rfl).trans kept,
      fun other outside => ?_⟩
    · unfold StoreM.joinAll
      rw [EStateM.bind_of_ok ran]
      exact ranRest
    simp only [List.mem_cons, not_or] at outside
    rw [others other (by simp [outside]), altered.frames]
    simp [outside]

private theorem joinAll_spec (distinct : handles.Nodup)
    (alone : ∀ handle ∈ handles, store.chainEnds handle = some ⟨none, none⟩)
    (done : StoreM.joinAll handles store = .ok () final) :
    Threaded final.chainEnds handles ∧ Undisturbed FrozenFrame.offChain store final ∧
      ∀ other, other ∉ handles → final.arena.find? other = store.arena.find? other := by
  cases handles with
  | nil =>
    obtain ⟨_, rfl⟩ := EStateM.pure_eq_ok.mp done
    exact ⟨.nil, .refl store, fun _ _ => rfl⟩
  | cons first rest =>
    obtain ⟨last, ran, facts⟩ := joinAll_run
      (show Threaded store.chainEnds ([] ++ [first]) from .singleton (alone first (by simp)))
      distinct fun other within => alone other (by simp [within])
    obtain rfl : last = final := by
      rw [done] at ran
      cases ran
      rfl
    exact facts

structure Installed (frames : List FrozenFrame) (handles : List Handle) (store final : Store) : Prop where
  held : List.Forall₂ (fun handle frame =>
    (final.arena.find? handle).map FrozenFrame.offChain = some frame.offChain) handles frames
  fresh : ∀ handle ∈ handles, store.arena.find? handle = none
  others : ∀ other, other ∉ handles → final.arena.find? other = store.arena.find? other

theorem Represents.added {roster : Roster} (valid : Represents store roster) (distinct : handles.Nodup)
    (fresh : ∀ handle ∈ handles, store.arena.find? handle = none)
    (threaded : Threaded final.chainEnds handles) (off : ∀ handle ∈ handles, final.ringAt (.head handle) = none)
    (others : ∀ other, other ∉ handles → final.arena.find? other = store.arena.find? other)
    (sound : final.arena.Sound) (anchor : final.anchor = store.anchor)
    (registered : final.registered = store.registered) : Represents final (roster.add handles) := by
  have away : ∀ handle ∈ roster.members, handle ∉ handles := by
    intro handle member within
    have live := (valid.live handle).mp member
    rw [fresh handle within] at live
    cases live
  have members := roster.members_add handles
  refine ⟨sound, ?_, ?_, fun handle => ?_, ?_, ?_⟩
  · rw [members.nodup_iff, List.nodup_append]
    exact ⟨distinct, valid.distinct, fun first within other member same =>
      away other member (same ▸ within)⟩
  · intro chain inside
    rcases Roster.mem_chains_add.mp inside with ⟨rfl, some⟩ | inside
    · exact some
    · exact valid.inhabited chain inside
  · rw [members.mem_iff, List.mem_append]
    by_cases within : handle ∈ handles
    · obtain ⟨before, after, rfl⟩ := List.append_of_mem within
      simp [live_of_threaded threaded within]
    · simp [within, others handle within, valid.live]
  · intro chain inside
    rcases Roster.mem_chains_add.mp inside with ⟨rfl, _⟩ | inside
    · exact threaded
    · apply (valid.linked chain inside).congr
      intro member within
      have outside := away member (List.mem_flatten.mpr ⟨chain, inside, within⟩)
      simp only [chainEnds, others member outside]
  · refine valid.ring.undisturbed (fun node => ?_) registered
    cases node with
    | anchor => exact congrArg some anchor
    | head handle =>
      by_cases within : handle ∈ handles
      · rw [off handle within, ringAt, fresh handle within]
        rfl
      · simp only [ringAt, others handle within]

theorem install_spec {roster : Roster} {answer : Option Chain} (valid : Represents store roster)
    (fresh : ∀ frame ∈ frames, frame.Fresh)
    (done : StoreM.install frames store = .ok answer final) :
    ∃ handles, answer = Chain.of? handles ∧ Installed frames handles store final ∧
      Represents final (roster.add handles) := by
  unfold StoreM.install at done
  obtain ⟨handles, middle, put, done⟩ := EStateM.bind_eq_ok.mp (StoreM.insisting_eq_ok.mp done)
  obtain ⟨_, last, joined, done⟩ := EStateM.bind_eq_ok.mp done
  obtain ⟨rfl, rfl⟩ := EStateM.pure_eq_ok.mp done
  have inserted := mapM_insert_spec put
  have frame_of := fun handle within => held_of_mem inserted.held (show handle ∈ handles from within)
  obtain ⟨threaded, kept, others⟩ := joinAll_spec inserted.distinct (fun handle within => by
    obtain ⟨frame, member, held⟩ := frame_of handle within
    simp [chainEnds, held, (fresh frame member).callee, (fresh frame member).caller]) joined
  have same : ∀ other, other ∉ handles → last.arena.find? other = store.arena.find? other :=
    fun other outside => (others other outside).trans (inserted.others other outside)
  refine ⟨handles, rfl, ⟨?_, inserted.fresh, same⟩, ?_⟩
  · refine inserted.held.imp fun handle frame held => ?_
    rw [kept.frames handle, held, Option.map_some]
  · refine valid.added inserted.distinct inserted.fresh threaded (fun handle within => ?_) same
      (kept.sound (inserted.sound valid.sound)) (kept.anchor.trans inserted.anchor)
      (kept.registered.trans inserted.registered)
    obtain ⟨frame, member, held⟩ := frame_of handle within
    have still : Undisturbed FrozenFrame.ring middle last :=
      kept.coarsen FrozenFrame.ring (·.ring) fun _ => rfl
    rw [still.ringAt, ringAt, held, Option.bind_some, (fresh frame member).ring]

end Store
end CallStacks.Frozen
