import CallStacks.Proofs.Collections
import CallStacks.Proofs.RosterRefinement
import CallStacks.Proofs.SlotGenerations
import CallStacks.Proofs.WellLinked

/-! What a handle is worth later on. A handle that a program has come by names its frame until the frame is resumed
or dropped. Until then the operations of the store take it, and afterwards all of them refuse it as stale. An
operation that fails has changed nothing. -/

namespace CallStacks.Frozen

namespace StoreM

variable {α β : Type} {store final : Store}

/-- Drop a frame and its callees, innermost first. Gives their number. -/
def dropChain (head : Handle) : StoreM Nat := do
  let members ← ask (·.chainMembers head)
  members.reverse.forM fun member => discard (detach member)
  return members.length

def Atomic (operation : StoreM α) (store : Store) : Prop :=
  ∀ failure final, operation store = .error failure final → final = store

private theorem ask_of_error {question : Store → Except Failure α} {failure : Failure}
    (failed : question store = .error failure) : ask question store = .error failure store :=
  ask_eq_error.mpr ⟨failed, rfl⟩

theorem Atomic.of_ok {operation : StoreM α} {answer : α} (done : operation store = .ok answer final) :
    Atomic operation store := by
  intro failure reached failed
  rw [done] at failed
  cases failed

theorem Atomic.of_error {operation : StoreM α} {failure : Failure} (failed : operation store = .error failure store) :
    Atomic operation store := by
  intro cause reached broken
  rw [failed] at broken
  cases broken
  rfl

end StoreM

namespace Store

variable {store : Store} {roster : Roster} {handle : Handle} {before after : List Handle}

/-- Every operation refuses the handle as stale, and changes nothing. -/
structure Refuses (store : Store) (handle : Handle) : Prop where
  frame : store.frame handle = .error (.refused (.stale handle))
  register : StoreM.register handle store = .error (.refused (.stale handle)) store
  unregister : StoreM.unregister handle store = .error (.refused (.stale handle)) store
  chainHead : store.chainHead handle = .error (.refused (.stale handle))
  chainMembers : store.chainMembers handle = .error (.refused (.stale handle))
  detach : StoreM.detach handle store = .error (.refused (.stale handle)) store
  dropChain : StoreM.dropChain handle store = .error (.refused (.stale handle)) store
  prepare : ∀ sp, StoreM.prepare handle sp store = .error (.refused (.stale handle)) store

/-- Every operation that a frame can be named to takes the handle. -/
structure Takes (store : Store) (handle : Handle) : Prop where
  chainHead : ∃ head, store.chainHead handle = .ok head
  chainMembers : ∃ members, store.chainMembers handle = .ok members
  detach : ∃ removed final, StoreM.detach handle store = .ok removed final
  dropChain : ∃ count final, StoreM.dropChain handle store = .ok count final
  prepare : ∀ sp, ∃ removed final, StoreM.prepare handle sp store = .ok removed final

/-- The handle names the head of a chain, which can be registered if it is not, and unregistered if it is. -/
structure Leads (store : Store) (handle : Handle) : Prop where
  led : store.chainHead handle = .ok handle
  heads : ∃ heads, store.heads = .ok heads ∧
    if handle ∈ heads then
      StoreM.register handle store = .error (.refused (.alreadyRegistered handle)) store ∧
        ∃ final, StoreM.unregister handle store = .ok () final
    else
      (∃ final, StoreM.register handle store = .ok () final) ∧
        StoreM.unregister handle store = .error (.refused (.notRegistered handle)) store

structure AllOrNothing (store : Store) (handle : Handle) : Prop where
  register : StoreM.Atomic (StoreM.register handle) store
  unregister : StoreM.Atomic (StoreM.unregister handle) store
  detach : StoreM.Atomic (StoreM.detach handle) store
  dropChain : StoreM.Atomic (StoreM.dropChain handle) store
  prepare : ∀ sp, StoreM.Atomic (StoreM.prepare handle sp) store

private theorem refuses_of_stale (stale : store.arena.find? handle = none) : store.Refuses handle := by
  obtain ⟨head, members, _⟩ := walks_of_stale stale
  have missing : StoreM.ask (·.frame handle) store = .error (.refused (.stale handle)) store :=
    StoreM.ask_of_error (StoreM.frame_of_stale stale)
  exact {
    frame := StoreM.frame_of_stale stale
    register := EStateM.bind_of_error missing
    unregister := EStateM.bind_of_error missing
    chainHead := head
    chainMembers := members
    detach := EStateM.bind_of_error missing
    dropChain := EStateM.bind_of_error (StoreM.ask_of_error members)
    prepare := fun _ => EStateM.bind_of_error (StoreM.ask_of_error head) }

private theorem dropChain_run (valid : Valid store roster) (member : before ++ handle :: after ∈ roster.chains) :
    ∃ count final, StoreM.dropChain handle store = .ok count final := by
  have listed := chainMembers_eq (valid.linked _ member) (valid.chain_distinct member)
  have part : (before ++ [handle]) ++ after = before ++ handle :: after := by simp
  obtain ⟨final, dropped, _⟩ := detachAll_spec valid (List.nodup_append.mp (part ▸ valid.chain_distinct member)).1
    fun other within => List.mem_flatten.mpr ⟨_, member, part ▸ List.mem_append_left _ within⟩
  have turned : (handle :: before.reverse).reverse = before ++ [handle] := by simp
  unfold StoreM.dropChain
  rw [EStateM.bind_of_ok (StoreM.ask_of_ok listed), turned, EStateM.bind_of_ok dropped]
  exact ⟨_, final, rfl⟩

private theorem takes_of_live (valid : Valid store roster)
    (trimmed : ∀ handle frame, store.arena.find? handle = some frame → frame.Trimmed)
    (live : (store.arena.find? handle).isSome) : store.Takes handle := by
  obtain ⟨frame, live⟩ := Option.isSome_iff_exists.mp live
  obtain ⟨before, after, member, _⟩ := valid.place live
  obtain ⟨head, members, _⟩ := valid.walks_end live
  obtain ⟨removed, final, ran, _⟩ := detach_spec valid member live
  refine ⟨head, members, ⟨removed, final, ran⟩, dropChain_run valid member, fun sp => ?_⟩
  exact prepare_run sp valid member fun other _ frame held => (trimmed other frame held).ready

private theorem register_of_hidden (valid : Valid store roster) (hidden : before ++ [handle] ∈ roster.hidden) :
    ∃ final, StoreM.register handle store = .ok () final := by
  let freezer : Freezer := { store }
  obtain ⟨after, done⟩ : ∃ after, freezer.register handle = .ok after := Freezer.register_run valid hidden
  obtain ⟨_, ran, _⟩ := CallStacks.Failure.bind_eq_ok.mp done
  obtain ⟨final, stored, _⟩ := Freezer.run_eq_ok.mp ran
  exact ⟨final, stored⟩

private theorem unregister_of_registered (valid : Valid store roster)
    (registered : before ++ [handle] ∈ roster.registered) :
    ∃ final, StoreM.unregister handle store = .ok () final := by
  let freezer : Freezer := { store }
  obtain ⟨after, done⟩ : ∃ after, freezer.unregister handle = .ok after := Freezer.unregister_run valid registered
  obtain ⟨_, ran, _⟩ := CallStacks.Failure.bind_eq_ok.mp done
  obtain ⟨final, stored, _⟩ := Freezer.run_eq_ok.mp ran
  exact ⟨final, stored⟩

private theorem isHead_of_last {frame : FrozenFrame} (valid : Valid store roster)
    (live : store.arena.find? handle = some frame)
    (head : frame.isHead) : ∃ before, before ++ [handle] ∈ roster.chains := by
  obtain ⟨before, after, member, _, caller⟩ := valid.place live
  cases after with
  | nil => exact ⟨before, member⟩
  | cons next rest => simp [FrozenFrame.isHead, caller] at head

private theorem leads_of_last (valid : Valid store roster) (member : before ++ [handle] ∈ roster.chains) :
    store.Leads handle := by
  obtain ⟨frame, live, _, caller⟩ := frame_of_threaded (valid.linked _ member)
  refine ⟨chainHead_eq (valid.linked _ member) (valid.chain_distinct member), roster.heads, valid.heads_eq, ?_⟩
  have linked := valid.registered_iff live
  split
  next within =>
    obtain ⟨start, registered⟩ := Represents.mem_heads_iff.mp within
    refine ⟨?_, unregister_of_registered valid registered⟩
    unfold StoreM.register
    rw [EStateM.bind_of_ok (StoreM.askFrame_of_live live), if_neg (by simp [FrozenFrame.isHead, caller]),
      if_pos (linked.mpr within)]
    rfl
  next outside =>
    have hidden : before ++ [handle] ∈ roster.hidden :=
      (List.mem_append.mp member).resolve_left fun registered =>
        outside (Represents.mem_heads_iff.mpr ⟨before, registered⟩)
    have unlinked : frame.ring = none := by
      have off := mt linked.mp outside
      simpa [FrozenFrame.isRegistered] using off
    refine ⟨register_of_hidden valid hidden, ?_⟩
    unfold StoreM.unregister
    rw [EStateM.bind_of_ok (StoreM.askFrame_of_live live), unlinked]
    rfl

private theorem allOrNothing (valid : Valid store roster)
    (trimmed : ∀ handle frame, store.arena.find? handle = some frame → frame.Trimmed) (handle : Handle) :
    store.AllOrNothing handle := by
  cases live : store.arena.find? handle with
  | none =>
    have refuses := refuses_of_stale live
    exact ⟨.of_error refuses.register, .of_error refuses.unregister, .of_error refuses.detach,
      .of_error refuses.dropChain, fun sp => .of_error (refuses.prepare sp)⟩
  | some frame =>
    have takes : store.Takes handle := takes_of_live valid trimmed (by simp [live])
    obtain ⟨_, _, detached⟩ := takes.detach
    obtain ⟨_, _, dropped⟩ := takes.dropChain
    refine ⟨?_, ?_, .of_ok detached, .of_ok dropped, fun sp => ?_⟩
    · by_cases head : frame.isHead
      · obtain ⟨before, member⟩ := isHead_of_last valid live head
        obtain ⟨heads, _, answers⟩ := (leads_of_last valid member).heads
        split at answers
        · exact .of_error answers.1
        · obtain ⟨⟨_, done⟩, _⟩ := answers
          exact .of_ok done
      · apply StoreM.Atomic.of_error
        unfold StoreM.register
        rw [EStateM.bind_of_ok (StoreM.askFrame_of_live live), if_pos (by simpa using head)]
        rfl
    · cases linked : frame.ring with
      | none =>
        apply StoreM.Atomic.of_error
        unfold StoreM.unregister
        rw [EStateM.bind_of_ok (StoreM.askFrame_of_live live), linked]
        rfl
      | some links =>
        obtain ⟨before, registered⟩ := Represents.mem_heads_iff.mp
          ((valid.registered_iff live).mp (by simp [FrozenFrame.isRegistered, linked]))
        obtain ⟨_, done⟩ := unregister_of_registered valid registered
        exact .of_ok done
    · obtain ⟨_, _, prepared⟩ := takes.prepare sp
      exact .of_ok prepared

end Store

theorem Roster.Follows.led {roster next : Roster} {operation : Operation} {before : List Handle} {head : Handle}
    (follows : roster.Follows operation next) (member : before ++ [head] ∈ roster.chains)
    (stays : head ∈ next.members) : ∃ inner, inner ++ [head] ∈ next.chains := by
  have thinned (gone : List Handle) (stays : head ∈ (roster.without gone).members) :
      ∃ inner, inner ++ [head] ∈ (roster.without gone).chains := by
    rw [Roster.members_without, List.mem_filter] at stays
    refine ⟨before.filter (· ∉ gone), ?_⟩
    rw [Roster.chains_without, mem_thinned]
    have alone : [head].filter (· ∉ gone) = [head] :=
      List.filter_eq_self.mpr fun other within => List.mem_singleton.mp within ▸ stays.2
    exact ⟨by simp, _, member, by rw [List.filter_append, alone]⟩
  cases follows with
  | capture memory place frames limit handles => exact ⟨before, Roster.mem_chains_add.mpr (.inr member)⟩
  | register other => exact ⟨before, (roster.chains_reveal other).mem_iff.mpr member⟩
  | unregister other => exact ⟨before, (roster.chains_conceal other).mem_iff.mpr member⟩
  | delete handle => exact thinned _ stays
  | deleteChain handle inside => exact thinned _ stays
  | resume handle => exact thinned _ stays
  | collect | age | rejuvenate | enterQuietScope | leaveQuietScope => exact ⟨before, member⟩

namespace Freezer
open Store

variable {freezer after : Freezer} {earlier timeline : List Freezer} {roster : Roster} {handle : Handle}

inductive HeadGiven (handle : Handle) : List Freezer → Prop
  | captured {freezer after : Freezer} {earlier : List Freezer} {memory : Memory} {place : Nat → Word}
      {frames : List LiveFrame} {limit : Word} {visited : Nat} {chain : Chain}
      (done : freezer.capture memory place frames limit = .ok ((visited, some chain), after))
      (head : chain.head = handle) : HeadGiven handle (after :: freezer :: earlier)
  | asked {freezer : Freezer} {earlier : List Freezer} {member : Handle} (led : freezer.chainHead member = .ok handle) :
      HeadGiven handle (freezer :: earlier)
  | before {freezer : Freezer} {earlier : List Freezer} (past : HeadGiven handle earlier) :
      HeadGiven handle (freezer :: earlier)

/-- The program has come by the handle: from a capture, from a question about chains or frames, or in a collection. -/
inductive Given (handle : Handle) : List Freezer → Prop
  | head {timeline : List Freezer} (given : HeadGiven handle timeline) : Given handle timeline
  | captured {freezer after : Freezer} {earlier : List Freezer} {memory : Memory} {place : Nat → Word}
      {frames : List LiveFrame} {limit : Word} {visited : Nat} {chain : Chain}
      (done : freezer.capture memory place frames limit = .ok ((visited, some chain), after))
      (innermost : chain.innermost = handle) : Given handle (after :: freezer :: earlier)
  | listed {freezer : Freezer} {earlier : List Freezer} {other : Handle} {members : List Handle}
      (listed : freezer.chainMembers other = .ok members) (within : handle ∈ members) :
      Given handle (freezer :: earlier)
  | linked {freezer : Freezer} {earlier : List Freezer} {other : Handle} {frame : FrozenFrame}
      (known : freezer.frame other = .ok frame) (linked : frame.caller = some handle ∨ frame.callee = some handle) :
      Given handle (freezer :: earlier)
  | shown {freezer after : Freezer} {earlier : List Freezer} {condemned : Generation} {count : Nat}
      {slots : List RootSlot} (done : freezer.collect noting condemned [] = .ok ((count, slots), after))
      {slot : RootSlot} (within : slot ∈ slots) (owner : slot.owner = handle) : Given handle (freezer :: earlier)
  | before {freezer : Freezer} {earlier : List Freezer} (past : Given handle earlier) :
      Given handle (freezer :: earlier)

private theorem told_noting (state reports : List RootSlot) : noting.told state reports = state ++ reports := by
  induction reports generalizing state with
  | nil => exact (List.append_nil state).symm
  | cons first rest ih =>
    rw [Visitor.told, List.foldl_cons]
    exact (ih (state ++ [first])).trans (by simp)

private theorem chain_of_capture {memory : Memory} {place : Nat → Word} {frames : List LiveFrame} {limit : Word}
    {visited : Nat} {chain : Chain} (valid : Valid freezer.store roster)
    (done : freezer.capture memory place frames limit = .ok ((visited, some chain), after)) :
    ∃ next inner, Valid after.store next ∧ inner ++ [chain.head] ∈ next.chains ∧
      chain.innermost ∈ inner ++ [chain.head] := by
  obtain ⟨_, handles, _, named, _, valid'⟩ := capture_spec valid done
  obtain ⟨inner, rfl, began⟩ := Chain.leads_of_of? named.symm
  exact ⟨_, inner, valid', Roster.mem_chains_add.mpr (.inl ⟨rfl, by simp⟩), began⟩

theorem Timeline.led_of_headGiven (history : Timeline timeline) (given : HeadGiven handle timeline) :
    ∃ past ∈ timeline, past.chainHead handle = .ok handle := by
  induction given with
  | captured done head =>
    obtain ⟨_, _, valid⟩ := (history.reachable _ (List.mem_cons_of_mem _ List.mem_cons_self)).history
    obtain ⟨next, inner, valid', member, _⟩ := chain_of_capture valid done
    subst head
    exact ⟨_, List.mem_cons_self, chainHead_eq (valid'.linked _ member) (valid'.chain_distinct member)⟩
  | asked led =>
    obtain ⟨_, _, valid⟩ := (history.reachable _ List.mem_cons_self).history
    obtain ⟨before, member, _⟩ := valid.chain_of_chainHead led
    exact ⟨_, List.mem_cons_self, chainHead_eq (valid.linked _ member) (valid.chain_distinct member)⟩
  | before past ih =>
    cases history with
    | fresh settings => cases past
    | step operation history done =>
      obtain ⟨past, within, led⟩ := ih history
      exact ⟨past, List.mem_cons_of_mem _ within, led⟩

theorem Timeline.live_of_given (history : Timeline timeline) (given : Given handle timeline) :
    ∃ past ∈ timeline, (past.store.arena.find? handle).isSome := by
  induction given with
  | head given =>
    obtain ⟨past, within, led⟩ := history.led_of_headGiven given
    obtain ⟨path, walked, _⟩ := CallStacks.Failure.bind_eq_ok.mp led
    obtain ⟨frame, live⟩ := live_of_path walked
    exact ⟨past, within, by simp [live]⟩
  | captured done innermost =>
    obtain ⟨_, _, valid⟩ := (history.reachable _ (List.mem_cons_of_mem _ List.mem_cons_self)).history
    obtain ⟨next, inner, valid', member, within⟩ := chain_of_capture valid done
    exact ⟨_, List.mem_cons_self, innermost ▸ valid'.live_of_mem member within⟩
  | listed listed within =>
    obtain ⟨_, _, valid⟩ := (history.reachable _ List.mem_cons_self).history
    exact ⟨_, List.mem_cons_self, valid.live_of_member listed within⟩
  | linked known linked =>
    obtain ⟨_, _, valid⟩ := (history.reachable _ List.mem_cons_self).history
    obtain ⟨before, above, member, callee, caller⟩ := valid.place (StoreM.frame_eq_ok.mp known)
    refine ⟨_, List.mem_cons_self, valid.live_of_mem member ?_⟩
    rw [callee, caller] at linked
    simp only [List.mem_append, List.mem_cons]
    rcases linked with called | calls
    · exact .inr (.inr (List.mem_of_head? called))
    · exact .inl (List.mem_of_getLast? calls)
  | shown done within owner =>
    obtain ⟨roster, _, represents, reports, _, _, last, owners, _⟩ :=
      (history.reachable _ List.mem_cons_self).collect_reports done
    rw [told_noting, List.nil_append] at last
    obtain ⟨registered, _⟩ := owners _ (last ▸ within)
    refine ⟨_, List.mem_cons_self, (represents.live handle).mp ?_⟩
    rw [Roster.members, Roster.chains, List.flatten_append]
    exact List.mem_append_left _ (owner ▸ registered)
  | before past ih =>
    cases history with
    | fresh settings =>
      cases past with
      | head given => cases given
    | step operation history done =>
      obtain ⟨past, within, live⟩ := ih history
      exact ⟨past, List.mem_cons_of_mem _ within, live⟩

/-- A head leads its chain until it is resumed or dropped. -/
theorem Timeline.led_of_not_spent (history : Timeline (freezer :: earlier))
    (led : ∃ past ∈ freezer :: earlier, past.chainHead handle = .ok handle)
    (unspent : ¬ Spent handle (freezer :: earlier)) : freezer.chainHead handle = .ok handle := by
  generalize known : freezer :: earlier = timeline at history
  induction history generalizing freezer earlier with
  | fresh settings =>
    cases known
    obtain ⟨past, within, led⟩ := led
    exact List.mem_singleton.mp within ▸ led
  | step operation history done ih =>
    cases known
    obtain ⟨past, within, led⟩ := led
    rcases List.mem_cons.mp within with rfl | within
    · exact led
    have before := ih ⟨past, within, led⟩ (fun spent => unspent (.inr spent)) rfl
    obtain ⟨roster, _, valid⟩ := (history.reachable _ List.mem_cons_self).history
    obtain ⟨inner, member, _⟩ := valid.chain_of_chainHead before
    obtain ⟨next, follows, valid'⟩ := perform_valid valid done
    have live := valid.live_of_mem member (show handle ∈ _ by simp)
    have still : handle ∈ next.members := by
      rw [valid'.live, Option.isSome_iff_ne_none]
      exact fun gone => unspent (.inl ⟨live, gone⟩)
    obtain ⟨inner, member⟩ := follows.led member still
    exact chainHead_eq (valid'.linked _ member) (valid'.chain_distinct member)

/-- What a handle that the program has come by is worth. Once its frame has been resumed or dropped every operation
refuses it as stale, unless its slot has been vacated so often that its generation comes again. Until then every
operation takes it, and if it is that of a chain it leads the chain still. Whatever handle it is given, an operation
that fails leaves the store as it was. -/
theorem Timeline.handle_answers (history : Timeline (freezer :: earlier)) (given : Given handle (freezer :: earlier))
    (few : vacancies handle.index (freezer :: earlier) < UInt32.size) :
    (Spent handle (freezer :: earlier) → freezer.store.Refuses handle) ∧
    (¬ Spent handle (freezer :: earlier) → freezer.store.Takes handle ∧
      (HeadGiven handle (freezer :: earlier) → freezer.store.Leads handle)) ∧
    ∀ handle, freezer.store.AllOrNothing handle := by
  have reachable := history.reachable freezer List.mem_cons_self
  obtain ⟨roster, _, valid⟩ := reachable.history
  refine ⟨fun spent => refuses_of_stale (history.stale_of_spent spent few), fun unspent => ⟨?_, fun given => ?_⟩,
    allOrNothing valid reachable.trimmed⟩
  · exact takes_of_live valid reachable.trimmed (live_of_not_spent (history.live_of_given given) unspent)
  · have led := history.led_of_not_spent (history.led_of_headGiven given) unspent
    obtain ⟨before, member, _⟩ := valid.chain_of_chainHead led
    exact leads_of_last valid member

/-- The head of the second chain is dropped. Its handle is refused from then on, and the first chain keeps its own. -/
theorem Timeline.handle_answers_sample : ∃ earlier, Timeline (sample :: earlier) ∧ Spent ⟨3, 0⟩ (sample :: earlier) ∧
    ¬ Spent ⟨1, 0⟩ (sample :: earlier) ∧ sample.store.Refuses ⟨3, 0⟩ ∧ sample.store.Leads ⟨1, 0⟩ := by
  have split : sampleProgram = sampleProgram.take 3 ++ [.delete ⟨3, 0⟩] := rfl
  obtain ⟨last, done, dropped⟩ := replay_concat (split ▸ replayed_sample)
  obtain ⟨earlier, length, history⟩ := exists_timeline done
  have history := history.step (.delete ⟨3, 0⟩) dropped
  have before : (replay {} (sampleProgram.take 3)).map (fun last => (last.chainHead ⟨2, 0⟩,
      (last.store.arena.find? ⟨3, 0⟩).isSome)) = .ok (.ok ⟨3, 0⟩, true) := by decide +kernel
  rw [done] at before
  obtain ⟨led, live⟩ := Prod.mk.inj (Except.ok.inj before)
  have few : ∀ index, vacancies index (sample :: last :: earlier) < UInt32.size := by
    intro index
    have short := vacancies_le_length index sample (last :: earlier)
    have three : (sampleProgram.take 3).length = 3 := rfl
    rw [List.length_cons, length, three] at short
    exact Nat.lt_of_le_of_lt short (by decide)
  have gone : Given ⟨3, 0⟩ (sample :: last :: earlier) := .before (.head (.asked led))
  have spent : Spent ⟨3, 0⟩ (sample :: last :: earlier) := .inl ⟨live, by decide +kernel⟩
  have asked : sample.chainHead ⟨0, 0⟩ = .ok ⟨1, 0⟩ := by decide +kernel
  have kept : HeadGiven ⟨1, 0⟩ (sample :: last :: earlier) := .asked asked
  have unspent : ¬ Spent ⟨1, 0⟩ (sample :: last :: earlier) := by
    intro spent
    have live : (sample.store.arena.find? ⟨1, 0⟩).isSome = true := by decide +kernel
    rw [history.stale_of_spent spent (few _)] at live
    cases live
  exact ⟨_, history, spent, unspent, (history.handle_answers gone (few _)).1 spent,
    ((history.handle_answers (.head kept) (few _)).2.1 unspent).2 kept⟩

end Freezer
end CallStacks.Frozen
