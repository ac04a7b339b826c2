import Mathlib.Algebra.GroupWithZero.Nat
import CallStacks.Proofs.SlotGenerations
import CallStacks.Proofs.WellLinked

/-! The books of the freezer. Each operation counts the frames that it brings in or lets go, so what has been captured
is there still, or has been resumed or dropped. The other figures are those of the frames and the chains that are
there. -/

namespace CallStacks.Frozen

namespace Roster

variable {roster : Roster} {gone : List Handle}

private theorem length_members_without (distinct : roster.members.Nodup) (once : gone.Nodup)
    (within : gone ⊆ roster.members) :
    (roster.without gone).members.length + gone.length = roster.members.length := by
  have taken : (roster.members.filter (· ∈ gone)).Perm gone := by
    refine (List.perm_ext_iff_of_nodup (distinct.filter _) once).mpr fun handle => ?_
    rw [List.mem_filter, decide_eq_true_eq]
    exact ⟨And.right, fun inside => ⟨within inside, inside⟩⟩
  have parts := (List.filter_append_perm (· ∈ gone) roster.members).length_eq
  rw [List.length_append, taken.length_eq] at parts
  rw [members_without, Nat.add_comm, ← parts]
  simp only [decide_not]

end Roster

namespace Store

variable {store : Store} {roster : Roster}

theorem Represents.perm_members (valid : Represents store roster) :
    (store.arena.toList.map (·.1)).Perm roster.members := by
  refine (List.perm_ext_iff_of_nodup (Arena.nodup_toList valid.sound.bounded) valid.distinct).mpr fun handle => ?_
  rw [valid.live, Option.isSome_iff_exists, List.mem_map]
  constructor
  · rintro ⟨⟨_, frame⟩, shown, rfl⟩
    exact ⟨frame, (Arena.mem_toList valid.sound.bounded).mp shown⟩
  · rintro ⟨frame, live⟩
    exact ⟨_, (Arena.mem_toList valid.sound.bounded).mpr live, rfl⟩

theorem Represents.length_members (valid : Represents store roster) : roster.members.length = store.arena.count := by
  rw [← valid.perm_members.length_eq, List.length_map, Arena.length_toList valid.sound]

theorem Represents.count_le (valid : Represents store roster) : store.arena.count ≤ UInt32.size := by
  rw [← valid.length_members]
  exact Nat.le_trans (valid.length_le_slots valid.distinct fun _ within => within) valid.sound.bounded

end Store

namespace Freezer
open Store

variable {freezer after : Freezer} {earlier : List Freezer} {operation : Operation} {roster : Roster}

/-- The counters have gone on by so many frames that came in, were resumed and were dropped, and so has the number of
frames in the store. -/
structure Counts (freezer after : Freezer) (came resumed dropped : Nat) : Prop where
  captured : after.captured = freezer.captured + UInt64.ofNat came
  restored : after.restored = freezer.restored + UInt64.ofNat resumed
  deleted : after.deleted = freezer.deleted + UInt64.ofNat dropped
  balance : after.store.arena.count + resumed + dropped = freezer.store.arena.count + came
  fits : came ≤ after.store.arena.count

theorem Counts.of_perm {next : Roster} (valid : Valid freezer.store roster) (valid' : Valid after.store next)
    (moved : next.chains.Perm roster.chains) (captured : after.captured = freezer.captured)
    (restored : after.restored = freezer.restored) (deleted : after.deleted = freezer.deleted) :
    Counts freezer after 0 0 0 := by
  refine ⟨by simp [captured], by simp [restored], by simp [deleted], ?_, Nat.zero_le _⟩
  rw [← valid'.length_members, ← valid.length_members]
  exact moved.flatten.length_eq

private theorem count_without {gone : List Handle} (valid : Valid freezer.store roster)
    (valid' : Valid after.store (roster.without gone)) (once : gone.Nodup) (within : gone ⊆ roster.members) :
    after.store.arena.count + gone.length = freezer.store.arena.count := by
  rw [← valid'.length_members, ← valid.length_members]
  exact Roster.length_members_without valid.distinct once within

private theorem count_left {handle : Handle} (valid : Valid freezer.store roster)
    (valid' : Valid after.store (roster.without [handle])) (within : handle ∈ roster.members) :
    after.store.arena.count + 1 = freezer.store.arena.count :=
  count_without valid valid' (List.nodup_singleton handle) fun _ inside => List.mem_singleton.mp inside ▸ within

theorem size_of? (handles : List Handle) : ((Chain.of? handles).elim 0 fun chain => chain.size) = handles.length := by
  cases handles with
  | nil => rfl
  | cons first rest => simp [Chain.of?, List.getLast?_cons]

theorem capture_counts {memory : Memory} {place : Nat → Word} {frames : List LiveFrame} {limit : Word}
    {answer : Nat × Option Chain} (valid : Valid freezer.store roster)
    (done : freezer.capture memory place frames limit = .ok (answer, after)) :
    Counts freezer after (answer.2.elim 0 fun chain => chain.size) 0 0 := by
  obtain ⟨visited, chain⟩ := answer
  obtain ⟨_, handles, _, named, _, valid'⟩ := capture_spec valid done
  have balance : after.store.arena.count = freezer.store.arena.count + chain.elim 0 fun chain => chain.size := by
    rw [named, size_of?, ← valid'.length_members, ← valid.length_members, (roster.members_add handles).length_eq,
      List.length_append, Nat.add_comm]
  refine ⟨?_, ?_, ?_, balance, balance ▸ Nat.le_add_left _ _⟩
  all_goals
    unfold Freezer.capture at done
    obtain ⟨_, _, done⟩ := CallStacks.Failure.bind_eq_ok.mp done
    obtain ⟨⟨made, _⟩, ran, done⟩ := CallStacks.Failure.bind_eq_ok.mp done
    obtain ⟨_, _, rfl⟩ := run_eq_ok.mp ran
    cases made <;> cases done <;> simp

private theorem delete_counts {handle : Handle} (valid : Valid freezer.store roster)
    (done : freezer.delete handle = .ok after) : Counts freezer after 0 0 1 := by
  obtain ⟨⟨_, _⟩, ran, same⟩ := CallStacks.Failure.bind_eq_ok.mp done
  cases same
  obtain ⟨store, stored, rfl⟩ := run_eq_ok.mp ran
  obtain ⟨_, _, member, valid', _⟩ := detached_of_detach valid stored
  have within : handle ∈ roster.members := List.mem_flatten.mpr ⟨_, member, by simp⟩
  exact ⟨(UInt64.add_zero _).symm, (UInt64.add_zero _).symm, rfl, count_left valid valid' within, Nat.zero_le _⟩

private theorem deleteChain_counts {head : Handle} {count : Nat} (valid : Valid freezer.store roster)
    (done : freezer.deleteChain head = .ok (count, after)) : Counts freezer after 0 0 count := by
  obtain ⟨⟨dropped, _⟩, ran, same⟩ := CallStacks.Failure.bind_eq_ok.mp done
  cases same
  obtain ⟨store, stored, rfl⟩ := run_eq_ok.mp ran
  obtain ⟨members, _, asked, stored⟩ := EStateM.bind_eq_ok.mp stored
  obtain ⟨listed, rfl⟩ := StoreM.ask_eq_ok.mp asked
  obtain ⟨_, last, gone, ended⟩ := EStateM.bind_eq_ok.mp stored
  obtain ⟨rfl, rfl⟩ := EStateM.pure_eq_ok.mp ended
  obtain ⟨before, above, member, turned, valid'⟩ := detachAll_of_chainMembers valid listed gone
  have part : (before ++ [head]) ++ above = before ++ head :: above := by simp
  refine ⟨(UInt64.add_zero _).symm, (UInt64.add_zero _).symm, rfl, ?_, Nat.zero_le _⟩
  rw [← List.length_reverse, turned]
  exact count_without valid valid' (List.nodup_append.mp (part ▸ valid.chain_distinct member)).1
    fun other within => List.mem_flatten.mpr ⟨_, member, part ▸ List.mem_append_left _ within⟩

private theorem resume_counts {handle : Handle} {value : ResumeValue} {landing : Landing} {memory : Memory}
    {resumption : Resumption} (valid : Valid freezer.store roster)
    (done : freezer.resume handle value landing memory = .ok (resumption, after)) : Counts freezer after 0 1 0 := by
  obtain ⟨removed, thawed, _⟩ := resume_spec valid done
  obtain ⟨callees, callers, _, _, member, _⟩ := thawed.moved
  have within : handle ∈ roster.members := List.mem_flatten.mpr ⟨_, member, by simp⟩
  have balance := count_left valid thawed.valid within
  unfold Freezer.resume at done
  obtain ⟨⟨_, _⟩, ran, done⟩ := CallStacks.Failure.bind_eq_ok.mp done
  obtain ⟨⟨_, _, _⟩, _, done⟩ := CallStacks.Failure.bind_eq_ok.mp done
  cases done
  obtain ⟨_, _, rfl⟩ := run_eq_ok.mp ran
  exact ⟨(UInt64.add_zero _).symm, rfl, (UInt64.add_zero _).symm, balance, Nat.zero_le _⟩

private theorem perform_counts (valid : Valid freezer.store roster) (done : freezer.perform operation = .ok after) :
    ∃ came resumed dropped, Counts freezer after came resumed dropped := by
  cases operation with
  | capture memory place frames limit =>
    obtain ⟨⟨answer, _⟩, ran, rfl⟩ := CallStacks.Failure.map_eq_ok.mp done
    exact ⟨_, 0, 0, capture_counts valid ran⟩
  | register head =>
    obtain ⟨⟨_, _⟩, ran, same⟩ := CallStacks.Failure.bind_eq_ok.mp done
    cases same
    obtain ⟨store, stored, rfl⟩ := run_eq_ok.mp ran
    exact ⟨0, 0, 0, .of_perm valid (register_spec valid stored).2 (roster.chains_reveal head) rfl rfl rfl⟩
  | unregister head =>
    obtain ⟨⟨_, _⟩, ran, same⟩ := CallStacks.Failure.bind_eq_ok.mp done
    cases same
    obtain ⟨store, stored, rfl⟩ := run_eq_ok.mp ran
    exact ⟨0, 0, 0, .of_perm valid (unregister_spec valid stored).2 (roster.chains_conceal head) rfl rfl rfl⟩
  | delete handle => exact ⟨0, 0, 1, delete_counts valid done⟩
  | deleteChain head =>
    obtain ⟨⟨count, _⟩, ran, rfl⟩ := CallStacks.Failure.map_eq_ok.mp done
    exact ⟨0, 0, count, deleteChain_counts valid ran⟩
  | resume handle value landing memory =>
    obtain ⟨⟨_, _⟩, ran, rfl⟩ := CallStacks.Failure.map_eq_ok.mp done
    exact ⟨0, 1, 0, resume_counts valid ran⟩
  | collect visit condemned state =>
    obtain ⟨⟨answer, _⟩, ran, rfl⟩ := CallStacks.Failure.map_eq_ok.mp done
    obtain ⟨_, ran⟩ := collecting_eq_ok.mp ran
    obtain ⟨store, stored, rfl⟩ := run_eq_ok.mp ran
    have valid' := valid.repainted (Visitor.chains_spec valid stored).kept
    exact ⟨0, 0, 0, .of_perm valid valid' (.refl _) rfl rfl rfl⟩
  | age condemned oldest =>
    change freezer.age condemned oldest = .ok after at done
    unfold Freezer.age at done
    split at done
    · obtain ⟨_, done⟩ := collecting_eq_ok.mp done
      obtain ⟨⟨_, _⟩, ran, same⟩ := CallStacks.Failure.bind_eq_ok.mp done
      cases same
      obtain ⟨store, stored, rfl⟩ := run_eq_ok.mp ran
      exact ⟨0, 0, 0, .of_perm valid (Store.age_valid valid stored) (.refl _) rfl rfl rfl⟩
    · cases done
      exact ⟨0, 0, 0, .of_perm valid valid (.refl _) rfl rfl rfl⟩
  | rejuvenate heap condemned oldest =>
    obtain ⟨⟨_, _⟩, ran, rfl⟩ := CallStacks.Failure.map_eq_ok.mp done
    unfold Freezer.rejuvenate at ran
    split at ran
    · obtain ⟨_, ran⟩ := collecting_eq_ok.mp ran
      obtain ⟨store, stored, rfl⟩ := run_eq_ok.mp ran
      exact ⟨0, 0, 0, .of_perm valid (Rejuvenation.rejuvenate_valid valid stored) (.refl _) rfl rfl rfl⟩
    · cases ran
      exact ⟨0, 0, 0, .of_perm valid valid (.refl _) rfl rfl rfl⟩
  | enterQuietScope =>
    cases done
    exact ⟨0, 0, 0, .of_perm valid valid (.refl _) rfl rfl rfl⟩
  | leaveQuietScope =>
    cases done
    exact ⟨0, 0, 0, .of_perm valid valid (.refl _) rfl rfl rfl⟩

/-- No counter has gone all the way round. As frames are captured before they are resumed or dropped, that one would be
the first. -/
def Unwrapped (timeline : List Freezer) : Prop :=
  timeline.IsChain fun after freezer => freezer.captured ≤ after.captured

private theorem toNat_add_ofNat {counter : UInt64} {count : Nat} (fits : counter.toNat + count < UInt64.size) :
    (counter + UInt64.ofNat count).toNat = counter.toNat + count := by
  have small : count < UInt64.size := by omega
  rw [UInt64.toNat_add, UInt64.toNat_ofNat_of_lt' small]
  exact Nat.mod_eq_of_lt fits

/-- A counter that goes on by less than a round and does not go down has not gone round. -/
theorem lt_of_le_add {counter : UInt64} {count : Nat} (small : count < UInt64.size)
    (up : counter ≤ counter + UInt64.ofNat count) : counter.toNat + count < UInt64.size := by
  rw [UInt64.le_iff_toNat_le, UInt64.toNat_add, UInt64.toNat_ofNat_of_lt' small] at up
  have below := counter.toNat_lt
  unfold UInt64.size at small ⊢
  omega

theorem Counts.balanced {came resumed dropped : Nat} (counts : Counts freezer after came resumed dropped)
    (bounded : after.store.arena.count ≤ UInt32.size) (up : freezer.captured ≤ after.captured)
    (before : freezer.captured.toNat = freezer.store.arena.count + freezer.restored.toNat + freezer.deleted.toNat) :
    after.captured.toNat = after.store.arena.count + after.restored.toNat + after.deleted.toNat := by
  have balance := counts.balance
  have fits := counts.fits
  have small : UInt32.size < UInt64.size := by decide
  have below : freezer.captured.toNat < UInt64.size := freezer.captured.toNat_lt
  rw [counts.captured] at up
  rw [counts.captured, counts.restored, counts.deleted, toNat_add_ofNat (lt_of_le_add (by omega) up),
    toNat_add_ofNat (by omega), toNat_add_ofNat (by omega)]
  omega

/-- What has been captured is there still, or has been resumed or dropped. -/
theorem Timeline.balanced (history : Timeline (freezer :: earlier)) (unwrapped : Unwrapped (freezer :: earlier)) :
    freezer.captured.toNat = freezer.store.arena.count + freezer.restored.toNat + freezer.deleted.toNat := by
  generalize known : freezer :: earlier = timeline at history
  induction history generalizing freezer earlier with
  | fresh settings =>
    cases known
    rfl
  | step operation past done ih =>
    cases known
    obtain ⟨up, unwrapped⟩ := List.isChain_cons_cons.mp unwrapped
    obtain ⟨roster, _, valid⟩ := (past.reachable _ List.mem_cons_self).history
    obtain ⟨next, _, valid'⟩ := perform_valid valid done
    obtain ⟨came, resumed, dropped, counts⟩ := perform_counts valid done
    exact counts.balanced valid'.count_le up (ih unwrapped rfl)

/-- A capture adds as many frames as the store has room for at most, so it takes many of them to wrap a counter. -/
theorem Timeline.unwrapped_of_short (history : Timeline (freezer :: earlier)) (short : earlier.length < UInt32.size) :
    Unwrapped (freezer :: earlier) ∧ freezer.captured.toNat ≤ earlier.length * UInt32.size := by
  generalize known : freezer :: earlier = timeline at history
  induction history generalizing freezer earlier with
  | fresh settings =>
    cases known
    exact ⟨.singleton _, Nat.le_refl 0⟩
  | @step freezer after earlier operation past done ih =>
    cases known
    rw [List.length_cons] at short
    obtain ⟨unwrapped, few⟩ := ih (Nat.lt_of_succ_lt short) rfl
    obtain ⟨roster, _, valid⟩ := (past.reachable _ List.mem_cons_self).history
    obtain ⟨next, _, valid'⟩ := perform_valid valid done
    obtain ⟨came, resumed, dropped, counts⟩ := perform_counts valid done
    have more : freezer.captured.toNat + came ≤ (earlier.length + 1) * UInt32.size := by
      rw [Nat.succ_mul]
      exact Nat.add_le_add few (Nat.le_trans counts.fits valid'.count_le)
    have fits : freezer.captured.toNat + came < UInt64.size := calc
      _ ≤ (earlier.length + 1) * UInt32.size := more
      _ < UInt32.size * UInt32.size := Nat.mul_lt_mul_of_pos_right short (by decide)
      _ = UInt64.size := by decide
    have up : after.captured.toNat = freezer.captured.toNat + came := by rw [counts.captured, toNat_add_ofNat fits]
    refine ⟨List.isChain_cons_cons.mpr ⟨?_, unwrapped⟩, up ▸ more⟩
    rw [UInt64.le_iff_toNat_le, up]
    exact Nat.le_add_right _ _

def OnChain (freezer : Freezer) (handle : Handle) : Prop :=
  ∃ head members, freezer.chainHead head = .ok head ∧ freezer.chainMembers head = .ok members ∧ handle ∈ members

private theorem onChain_iff (valid : Valid freezer.store roster) {handle : Handle} :
    freezer.OnChain handle ↔ (freezer.store.arena.find? handle).isSome := by
  constructor
  · rintro ⟨head, members, _, listed, within⟩
    exact valid.live_of_member listed within
  · intro live
    obtain ⟨frame, live⟩ := Option.isSome_iff_exists.mp live
    obtain ⟨before, above, member, _⟩ := valid.place live
    have within : handle ∈ before ++ handle :: above := by simp
    obtain ⟨inner, head, split, _⟩ := valid.chainHead_of_member member within
    rw [split] at member within
    have listed := chainMembers_eq (valid.linked _ member) (valid.chain_distinct member)
    exact ⟨head, _, chainHead_eq (valid.linked _ member) (valid.chain_distinct member), listed,
      by simpa [or_comm] using within⟩

/-- No frame is lost and none is counted twice. As long as no counter has gone round, what has been captured is there
still, or has been resumed or dropped. The frames counted as there are the members of the chains, each once, and the
bytes are those of their buffers. The chains counted as registered are as many as the heads that a collection goes
through, each once. -/
theorem Timeline.nothing_lost (history : Timeline (freezer :: earlier)) (unwrapped : Unwrapped (freezer :: earlier)) :
    freezer.statistics.captured.toNat = freezer.statistics.live + freezer.statistics.restored.toNat +
      freezer.statistics.deleted.toNat ∧
    (∃ frozen : List (Handle × FrozenFrame), (frozen.map (·.1)).Nodup ∧
      (∀ handle, freezer.OnChain handle ↔ handle ∈ frozen.map (·.1)) ∧
      (∀ member ∈ frozen, freezer.frame member.1 = .ok member.2) ∧
      freezer.statistics.live = frozen.length ∧
      freezer.statistics.retained = (frozen.map (·.2.buffer.size)).sum) ∧
    ∃ heads, freezer.store.heads = .ok heads ∧ heads.Nodup ∧ (∀ head ∈ heads, freezer.chainHead head = .ok head) ∧
      freezer.statistics.registered = heads.length := by
  obtain ⟨roster, _, valid⟩ := (history.reachable _ List.mem_cons_self).history
  have bounded := valid.sound.bounded
  refine ⟨history.balanced unwrapped, ⟨freezer.store.arena.toList, Arena.nodup_toList bounded, fun handle => ?_, ?_,
    (Arena.length_toList valid.sound).symm, ?_⟩, roster.heads, valid.heads_eq, valid.nodup_heads, fun head within => ?_,
    valid.ring.counted⟩
  · rw [onChain_iff valid, ← valid.live, valid.perm_members.mem_iff]
  · exact fun member within => StoreM.frame_eq_ok.mpr ((Arena.mem_toList bounded).mp within)
  · rw [List.sum_eq_foldl, List.foldl_map]
    rfl
  · obtain ⟨before, registered⟩ := Represents.mem_heads_iff.mp within
    have member := List.mem_append_left roster.hidden registered
    exact chainHead_eq (valid.linked _ member) (valid.chain_distinct member)

/-- Four frames have been captured and one of them has been dropped. -/
theorem Timeline.nothing_lost_sample : ∃ earlier, Timeline (sample :: earlier) ∧ Unwrapped (sample :: earlier) ∧
    sample.statistics = ⟨1, 3, 48, 4, 0, 1⟩ ∧
    sample.statistics.captured.toNat = sample.statistics.live + sample.statistics.restored.toNat +
      sample.statistics.deleted.toNat := by
  obtain ⟨earlier, length, history⟩ := exists_timeline replayed_sample
  have four : sampleProgram.length = 4 := rfl
  have unwrapped := (history.unwrapped_of_short (by rw [length, four]; decide)).1
  exact ⟨earlier, history, unwrapped, by decide +kernel, (history.nothing_lost unwrapped).1⟩

end Freezer
end CallStacks.Frozen
