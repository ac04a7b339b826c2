import CallStacks.Proofs.GreenRequests

/-! Switches to the operating system's stack. A switch starts from what is noted of that stack: it lands clear of what
was in use when it was left, on the highest place there is. A function that has gone there since is not noted, and the
next switch lands where it started. The bounds that go with the note are passed on and not consulted. They are right
above if the stub that spilled them, or the function that started on a green stack, was within them, and the lower one
is kept wherever there is room for the call above it. -/

namespace CallStacks.Green

variable {place : Nat → Word} {settings : Settings} {memory : Memory} {thread after : Thread} {move : Move}

/-- The first stub that asks a thread for a segment has its frame within the bounds that it spilled. -/
def Move.Framed (memory : Memory) (thread : Thread) (move : Move) : Prop :=
  ∀ argBytes stubSp caller, move.asks? memory = some (.grow argBytes, stubSp, caller) →
    thread.segments.segments = [] → stubSp.toNat + StubFrame.size.toNat ≤ caller.base.toNat

/-- The bounds noted for the operating system's stack reach up to the part noted as in use. -/
def Thread.Bounded (thread : Thread) : Prop := ∀ os, thread.os = some os → os.current ≤ os.range.base

theorem Thread.Shifts.bounded (shifts : thread.Shifts place memory move after) (sound : thread.Sound)
    (framed : move.Framed memory thread) (bounded : thread.Bounded) : after.Bounded := by
  cases shifts with
  | @grown argBytes stubSp caller asked grown =>
    obtain ⟨ledger, tells⟩ := sound.told
    have noted := grown.noted
    split at noted
    next first =>
      have empty : thread.segments.segments = [] := by
        have unused := mt tells.current?_isSome_iff.mpr (by simpa using first)
        exact not_not.mp unused
      obtain ⟨current, summed, known⟩ := noted
      intro os same
      cases known.symm.trans same
      have frame := framed argBytes stubSp caller asked empty
      rw [← (Word.add?_eq_some_iff.mp summed).2] at frame
      exact UInt64.le_iff_toNat_le.mpr frame
    next => exact fun os same => bounded os (noted ▸ same)
  | boarded idle boards =>
    obtain ⟨_, _, _, _, rfl⟩ := boards
    intro os same
    cases same
    exact UInt64.le_refl _
  | emptied frees empty forgotten => exact fun os same => by simp [forgotten] at same
  | stayed settings os => exact fun other same => bounded other (os ▸ same)

namespace Moment

variable {moment next : Moment} {program : Program}

def Orderly (place : Nat → Word) : Moment → Moment → Prop :=
  Relation.ReflTransGen fun moment next =>
    ∃ move, Step place move moment next ∧ move.Framed moment.run.world.memory moment.thread

theorem Orderly.bounded (orderly : Orderly place moment next) (sound : moment.Sound) (bounded : moment.thread.Bounded) :
    next.Sound ∧ next.thread.Bounded := by
  induction orderly with
  | refl => exact ⟨sound, bounded⟩
  | tail _ step ih =>
    obtain ⟨move, step, framed⟩ := step
    obtain ⟨sound, bounded⟩ := ih
    exact ⟨(step.passes sound).1, (step.shifts sound).bounded sound.run.thread framed bounded⟩

/-- A request for the operating system's stack changes nothing. It is answered with an aligned place that is clear of
what was in use when the stack was left. That is within the upper bound if what was in use reached up to it, which it did
where stubs have their frames where they say. It is within the lower bound if any place is, and only if none is may the
request be refused. It is stopped, and never answered, where the arguments of the stub would be past the last address. -/
theorem os_switch_lands {moment : Moment} {size : Int32} (wanted : size < 0) (stubSp : Word) (caller : StackRange) :
    (Orderly place (start settings memory program) moment → moment.thread.Bounded) ∧
    Ends (fun switch after => after = moment.thread ∧ switch.argBytes.toNat = (-(size.toInt + 1)).toNat ∧
        stubSp.toNat + 0x60 < UInt64.size ∧
        ∃ os, moment.thread.os = some os ∧ switch.range = os.range ∧ 16 ∣ switch.sp.toNat ∧
          switch.sp.toNat + 0x20 + switch.argBytes.toNat + (0xe8 + 8) ≤ os.current.toNat ∧
          (os.current ≤ os.range.base → switch.sp.toNat + 0x20 + switch.argBytes.toNat ≤ switch.range.base.toNat) ∧
          ∀ other, os.Offers switch.argBytes.toNat other → switch.range.limit.toNat ≤ other →
            switch.range.limit ≤ switch.sp)
      (fun failure after => after = moment.thread ∧
        (failure = .refused .noOsStack ∧ (∀ os other, moment.thread.os = some os →
            os.Offers (-(size.toInt + 1)).toNat other → other < os.range.limit.toNat) ∨
          failure = .stopped .overflow ∧ UInt64.size ≤ stubSp.toNat + 0x60))
      (ThreadM.allocate place (Request.decode size) stubSp caller moment.thread) := by
  refine ⟨fun orderly => (orderly.bounded .start nofun).2, ?_⟩
  have few := Request.argBytes_decode_lt size
  have least := size.le_toInt
  have asks := Request.decode_of_neg wanted
  have count : (UInt64.ofNat (-(size.toInt + 1)).toNat).toNat = (-(size.toInt + 1)).toNat :=
    UInt64.toNat_ofNat_of_lt' (by change _ < 2 ^ 64; omega)
  rw [asks] at few ⊢
  refine (ThreadM.allocate_tops few place stubSp caller moment.thread).mono ?_ ?_
  · rintro switch after ⟨same, carries, low, os, known, range, tops⟩
    have clear := tops.clear
    rw [carries, range]
    refine ⟨same, count, low, os, known, rfl, tops.aligned, clear, fun bounded => ?_, fun other offers kept => ?_⟩
    · have top := UInt64.le_iff_toNat_le.mp bounded
      omega
    · exact UInt64.le_iff_toNat_le.mpr (Nat.le_trans kept (tops.highest other offers))
  · rintro failure after ⟨same, ⟨refused, cramped⟩ | stopped⟩
    · change moment.thread.Cramped (UInt64.ofNat _).toNat at cramped
      rw [count] at cramped
      exact ⟨same, .inl ⟨refused, fun os other known offers => absurd offers (cramped os other known)⟩⟩
    · exact ⟨same, .inr stopped⟩

def growFrom (stubSp : Word) : Program := .perform (.allocate (.grow 0) stubSp ⟨0x1000, 0x4000⟩ false) .done

private theorem orderly_growFrom {run : Run} {stubSp : Word} (within : stubSp.toNat + StubFrame.size.toNat ≤ 0x4000)
    (grown : Operation.run place 0 (.allocate (.grow 0) stubSp ⟨0x1000, 0x4000⟩ false)
      (start settings memory (growFrom stubSp)).run = .ok () run) :
    Orderly place (start settings memory (growFrom stubSp)) ⟨.done, [], run⟩ :=
  .single ⟨_, Step.perform grown, fun _ _ _ asked _ => by cases asked; exact within⟩

/-- The stub has its frame in the lower half of the stack. The next request fits under it. -/
theorem os_switch_lands_above : ∃ moment : Moment,
    Orderly (fun _ => 0x100000) (start {} .blank (growFrom 0x1800)) moment ∧
    ∃ switch, ThreadM.allocate (fun _ => 0x100000) (Request.decode (-0x101)) 0x9000 {} moment.thread =
        .ok switch moment.thread ∧
      switch.range = ⟨0x1000, 0x4000⟩ ∧ switch.sp = 0x16d0 ∧ switch.argBytes.toNat = 0x100 ∧ 16 ∣ switch.sp.toNat ∧
      switch.range.limit ≤ switch.sp ∧
      switch.sp.toNat + 0x20 + switch.argBytes.toNat ≤ switch.range.base.toNat := by
  obtain ⟨moment, reached, known, switch, ran, range, sp⟩ : ∃ moment : Moment,
      Orderly (fun _ => 0x100000) (start {} .blank (growFrom 0x1800)) moment ∧
      moment.thread.os = some ⟨⟨0x1000, 0x4000⟩, 0x18e8⟩ ∧
      ∃ switch, ThreadM.allocate (fun _ => 0x100000) (Request.decode (-0x101)) 0x9000 {} moment.thread =
          .ok switch moment.thread ∧ switch.range = ⟨0x1000, 0x4000⟩ ∧ switch.sp = 0x16d0 :=
    ⟨_, orderly_growFrom (by decide) rfl, rfl, _, rfl, rfl, rfl⟩
  obtain ⟨bounded, answered⟩ :=
    @os_switch_lands (fun _ => 0x100000) {} .blank (growFrom 0x1800) moment (-0x101) (by decide) 0x9000 {}
  obtain ⟨_, carries, _, os, noted, same, aligned, _, below, above⟩ := answered.of_ok ran
  have top := bounded reached os noted
  cases known.symm.trans noted
  refine ⟨moment, reached, switch, ran, range, sp, carries, aligned, above 0x1000 ?_ ?_, below top⟩
  · exact carries ▸ ⟨by decide, by decide⟩
  · rw [range]
    decide

def backAndForth : Program :=
  .enterGreen ⟨1, none, .recording 0x9000⟩ (.enterOs ⟨2, none, .recording 0x8000⟩ .done .done) .done

/-- Where the stub has its frame above the bounds that it spills, the switch lands above them as well. For a larger
request there is no place above the lower bound, and the switch lands beneath. A function that runs on the operating
system's stack already is sent back to where it started, over its own home area. -/
theorem os_switch_astray :
    (∃ moment : Moment, Leads (fun _ => 0x100000) (start {} .blank (growFrom 0x9000)) moment ∧
      ∃ switch, ThreadM.allocate (fun _ => 0x100000) (Request.decode (-1)) 0x9000 {} moment.thread =
          .ok switch moment.thread ∧
        switch.range = ⟨0x1000, 0x4000⟩ ∧ switch.sp = 0x8fd0 ∧ ¬ switch.sp < switch.range.base) ∧
    (∃ moment : Moment, Orderly (fun _ => 0x100000) (start {} .blank (growFrom 0x1800)) moment ∧
      ∃ switch, ThreadM.allocate (fun _ => 0x100000) (Request.decode (-0x801)) 0x9000 {} moment.thread =
          .ok switch moment.thread ∧
        switch.range = ⟨0x1000, 0x4000⟩ ∧ switch.sp = 0xfd0 ∧ ¬ switch.range.limit ≤ switch.sp) ∧
    ∃ moment : Moment, Leads (fun _ => 0x100000) (start {} .blank backAndForth) moment ∧ moment.thread.onOs = true ∧
      ∃ switch, ThreadM.allocate (fun _ => 0x100000) (Request.decode (-1)) 0x8e00 {} moment.thread =
          .ok switch moment.thread ∧
        switch.sp = 0x8ef0 ∧ ∃ depth world, ⟨depth, .stack switch.sp, world⟩ ∈ moment.run.trace :=
  ⟨⟨_, Step.leads (.perform rfl), _, rfl, rfl, rfl, by decide⟩,
    ⟨_, orderly_growFrom (by decide) rfl, _, rfl, rfl, rfl, by decide⟩,
    _, (Step.enterGreen rfl).leads.trans (Step.enterOs rfl).leads, rfl, _, rfl, rfl, _, _,
      Array.mem_push.mpr (.inl Array.mem_push_self)⟩

end Moment
end CallStacks.Green
