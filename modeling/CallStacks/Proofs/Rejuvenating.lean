import CallStacks.Proofs.Aging

/-! What rejuvenation makes of floors. In the chains that a collection will scan every floor comes down to where the
referents are, and the head's to the lowest of its chain. That the scan of a frame stops at the youngest generation
makes no difference, since nothing lies below it; so once a floor has been lowered and is not the youngest, all of the
frame has been read, and the same heap has no more to say. -/

namespace CallStacks.Frozen

/-- The generation as far as floors can tell: between the youngest and `oldest`. -/
def Generation.clamped (generation oldest : Generation) : Generation := min (max youngest generation) oldest

namespace Generation

variable {generation oldest bound : Generation}

private theorem bounded_eq (nonnegative : youngest ≤ oldest) :
    generation.bounded oldest = .ok (generation.clamped oldest) := by
  rw [bounded, if_neg (Int.not_lt.mpr nonnegative), clamped]

theorem isActive_of_idle {floor : Generation} (idle : youngest ≤ floor) : floor.isActive = false := by
  rw [isActive, decide_eq_false_iff_not, Int.not_lt]
  exact idle

private theorem youngest_le_clamped (nonnegative : youngest ≤ oldest) : youngest ≤ generation.clamped oldest :=
  Int.le_min.mpr ⟨Int.le_max_left _ _, nonnegative⟩

end Generation

private theorem le_foldl_min_iff {bound start : Int} {values : List Int} :
    bound ≤ values.foldl min start ↔ bound ≤ start ∧ ∀ value ∈ values, bound ≤ value := by
  induction values generalizing start with
  | nil => simp
  | cons value rest ih =>
    rw [List.foldl_cons, ih, Int.le_min, List.forall_mem_cons, and_assoc]

private theorem foldl_min_le {start : Int} {values : List Int} : values.foldl min start ≤ start :=
  (le_foldl_min_iff.mp (Int.le_refl _)).1

namespace Rejuvenation

variable {heap : Word → Generation} {oldest floor lowered : Generation} {layout : Layout} {buffer : Buffer}
  {offsets : List UInt32} {asked : List Word}

def wordAt (layout : Layout) (buffer : Buffer) (offset : UInt32) : Except Refusal Word :=
  layout.bufferOffset offset >>= buffer.read

def wordsAt (layout : Layout) (buffer : Buffer) (offsets : List UInt32) : List Word :=
  (offsets.filterMap fun offset => (wordAt layout buffer offset).toOption).filter (· ≠ 0)

private theorem wordsAt_cons {offset : UInt32} {word : Word} (read : wordAt layout buffer offset = .ok word) :
    wordsAt layout buffer (offset :: offsets) =
      if word = 0 then wordsAt layout buffer offsets else word :: wordsAt layout buffer offsets := by
  rw [wordsAt, List.filterMap_cons_some (show _ = some word by rw [read]; rfl), List.filter_cons]
  by_cases null : word = 0 <;> simp [null, wordsAt]

/-- The scan of a frame finds the lowest of the floor and its words' generations. It asks about those words in their
order, and has read all of them unless it ends at the youngest generation. -/
theorem youngest_spec (nonnegative : Generation.youngest ≤ oldest) (idle : Generation.youngest ≤ floor)
    (done : youngest heap oldest layout buffer offsets floor = .ok (lowered, asked)) :
    lowered = ((wordsAt layout buffer offsets).map fun word => (heap word).clamped oldest).foldl min floor ∧
      asked.Sublist (wordsAt layout buffer offsets) ∧
      (Generation.youngest < lowered → ∀ offset ∈ offsets, ∃ word, wordAt layout buffer offset = .ok word) := by
  induction offsets generalizing floor asked with
  | nil =>
    cases done
    exact ⟨rfl, .slnil, nofun⟩
  | cons offset rest ih =>
    unfold youngest at done
    split at done
    next bottom =>
      cases done
      refine ⟨Int.le_antisymm (le_foldl_min_iff.mpr ⟨Int.le_refl _, fun value within => ?_⟩) foldl_min_le,
        List.nil_sublist _, fun above => absurd bottom (Int.ne_of_gt above)⟩
      obtain ⟨word, _, rfl⟩ := List.mem_map.mp within
      exact bottom ▸ Generation.youngest_le_clamped nonnegative
    next =>
      obtain ⟨referent, read, done⟩ := CallStacks.Failure.bind_eq_ok.mp done
      have read : wordAt layout buffer offset = .ok referent := CallStacks.Failure.ofRefusal_eq_ok.mp read
      rw [wordsAt_cons read]
      split at done
      next null =>
        obtain ⟨lowest, told, legible⟩ := ih idle done
        rw [if_pos null]
        exact ⟨lowest, told, fun above => List.forall_mem_cons.mpr ⟨⟨referent, read⟩, legible above⟩⟩
      next some =>
        obtain ⟨generation, bounded, done⟩ := CallStacks.Failure.bind_eq_ok.mp done
        obtain ⟨⟨lowest, words⟩, later, done⟩ := CallStacks.Failure.bind_eq_ok.mp done
        cases done
        rw [Generation.bounded_eq nonnegative] at bounded
        cases bounded
        obtain ⟨lowest, told, legible⟩ :=
          ih (Int.le_min.mpr ⟨idle, Generation.youngest_le_clamped nonnegative⟩) later
        rw [if_neg some]
        exact ⟨lowest, told.cons_cons referent, fun above => List.forall_mem_cons.mpr ⟨⟨referent, read⟩, legible above⟩⟩

private theorem youngest_settled (nonnegative : Generation.youngest ≤ oldest)
    (legible : ∀ offset ∈ offsets, ∃ word, wordAt layout buffer offset = .ok word)
    (low : ∀ word ∈ wordsAt layout buffer offsets, floor ≤ (heap word).clamped oldest) :
    ∃ asked, youngest heap oldest layout buffer offsets floor = .ok (floor, asked) := by
  induction offsets with
  | nil => exact ⟨[], rfl⟩
  | cons offset rest ih =>
    obtain ⟨⟨referent, read⟩, others⟩ := List.forall_mem_cons.mp legible
    rw [wordsAt_cons read] at low
    unfold youngest
    split
    next => exact ⟨[], rfl⟩
    next =>
      change layout.bufferOffset offset >>= buffer.read = _ at read
      rw [read]
      simp only [CallStacks.Failure.ofRefusal, bind, Except.bind]
      split
      next null =>
        rw [if_pos null] at low
        exact ih others low
      next some =>
        rw [if_neg some] at low
        obtain ⟨asked, same⟩ := ih others fun word within => low word (List.mem_cons_of_mem _ within)
        have below : min floor ((heap referent).clamped oldest) = floor := Int.min_eq_left (low referent List.mem_cons_self)
        rw [Generation.bounded_eq nonnegative]
        simp only [CallStacks.Failure.ofStop, below, same]
        exact ⟨_, rfl⟩

end Rejuvenation

namespace FrozenFrame

variable {frame : FrozenFrame} {heap : Word → Generation} {oldest floor : Generation} {word : Word}

def withFloor (frame : FrozenFrame) (floor : Generation) : FrozenFrame := { frame with floor }

def lowest (heap : Word → Generation) (oldest : Generation) (frame : FrozenFrame) : Generation :=
  (frame.referents.map fun word => (heap word).clamped oldest).foldl min frame.floor

def Legible (frame : FrozenFrame) : Prop :=
  ∀ offset ∈ frame.layout.roots.map (·.offset), ∃ word, Rejuvenation.wordAt frame.layout frame.buffer offset = .ok word

def Settled (heap : Word → Generation) (oldest : Generation) (frame : FrozenFrame) : Prop :=
  ∃ asked, Rejuvenation.youngest heap oldest frame.layout frame.buffer (frame.layout.roots.map (·.offset)) frame.floor =
    .ok (frame.floor, asked)

/-- Something that the frame refers to is younger than its floor. -/
def sinks (heap : Word → Generation) (oldest : Generation) (frame : FrozenFrame) : Bool :=
  frame.lowest heap oldest < frame.floor

private theorem referents_eq (frame : FrozenFrame) :
    frame.referents = Rejuvenation.wordsAt frame.layout frame.buffer (frame.layout.roots.map (·.offset)) := by
  rw [referents, Rejuvenation.wordsAt, List.filterMap_map]
  rfl

private theorem lowest_le : frame.lowest heap oldest ≤ frame.floor := foldl_min_le

theorem lowest_le_clamped (referred : word ∈ frame.referents) :
    frame.lowest heap oldest ≤ (heap word).clamped oldest :=
  (le_foldl_min_iff.mp (Int.le_refl _)).2 _ (List.mem_map_of_mem referred)

private theorem settled_of_low (nonnegative : Generation.youngest ≤ oldest) (legible : frame.Legible)
    (low : floor ≤ frame.lowest heap oldest) : (frame.withFloor floor).Settled heap oldest := by
  refine Rejuvenation.youngest_settled nonnegative legible fun word within => ?_
  rw [← referents_eq] at within
  exact Int.le_trans low (lowest_le_clamped within)

end FrozenFrame

namespace Store

variable {store middle final : Store} {handles : List Handle} {handle : Handle} {frame : FrozenFrame}

def lowests (heap : Word → Generation) (oldest : Generation) (store : Store) (handles : List Handle) : List Generation :=
  (store.listing handles).map (·.2.lowest heap oldest)

def referents (store : Store) (handles : List Handle) : List Word := (store.listing handles).flatMap (·.2.referents)

/-- A collection of `condemned` wants the floors of the head's chain lowered. -/
def ripe (store : Store) (condemned : Generation) (head : Handle) : Bool :=
  (store.floor? head).any fun floor => Generation.youngest < floor && floor ≤ condemned

theorem ripe_iff {condemned : Generation} (live : store.arena.find? handle = some frame) :
    store.ripe condemned handle = true ↔ Generation.youngest < frame.floor ∧ frame.floor ≤ condemned := by
  rw [ripe, floor?_of_frame live, Option.any_some, Bool.and_eq_true, decide_eq_true_eq, decide_eq_true_eq]

theorem Valid.idle_of_ripe {roster : Roster} {before : List Handle} {head : Handle} {condemned : Generation}
    (valid : Valid store roster) (member : before ++ [head] ∈ roster.chains) (ripe : store.ripe condemned head = true)
    (within : handle ∈ before ++ [head]) (live : store.arena.find? handle = some frame) :
    Generation.youngest ≤ frame.floor := by
  obtain ⟨top, lead⟩ := Option.isSome_iff_exists.mp (valid.live_of_mem member (show head ∈ _ by simp))
  have least := valid.lowest _ member head (by simp) top.floor (floor?_of_frame lead) frame.floor
    (mem_floors.mpr ⟨handle, within, frame, live, rfl⟩)
  exact Int.le_of_lt (Int.lt_of_lt_of_le ((ripe_iff lead).mp ripe).1 least)

theorem mem_lowests {heap : Word → Generation} {oldest : Generation} (within : handle ∈ handles)
    (live : store.arena.find? handle = some frame) :
    frame.lowest heap oldest ∈ store.lowests heap oldest handles := by
  refine List.mem_map.mpr ⟨(handle, frame), List.mem_filterMap.mpr ⟨handle, within, ?_⟩, rfl⟩
  rw [live, Option.map_some]

private theorem listing_congr (same : ∀ handle ∈ handles, final.arena.find? handle = store.arena.find? handle) :
    final.listing handles = store.listing handles :=
  List.filterMap_congr fun handle within => congrArg (Option.map (handle, ·)) (same handle within)

end Store

namespace Rejuvenation
open Store

variable {store final : Store} {handle : Handle} {handles : List Handle} {frame : FrozenFrame}
  {heap : Word → Generation} {oldest : Generation} {seen answer : Generation × Rejuvenation}

/-- What going through some frames adds to a report. The heap has been asked about some of what they refer to, in that
order, and those that sink have been counted. -/
structure Adds (heap : Word → Generation) (oldest : Generation) (entries : List (Handle × FrozenFrame))
    (report extended : Rejuvenation) : Prop where
  asked : ∃ told, told.Sublist (entries.flatMap (·.2.referents)) ∧ extended.asked = report.asked ++ told
  lowered : extended.lowered = report.lowered + entries.countP (·.2.sinks heap oldest)

theorem Adds.none (report : Rejuvenation) : Adds heap oldest [] report report :=
  ⟨⟨[], .slnil, (List.append_nil _).symm⟩, rfl⟩

theorem Adds.append {entries more : List (Handle × FrozenFrame)} {report extended last : Rejuvenation}
    (first : Adds heap oldest entries report extended) (second : Adds heap oldest more extended last) :
    Adds heap oldest (entries ++ more) report last := by
  obtain ⟨⟨told, fits, asked⟩, lowered⟩ := first
  obtain ⟨⟨told', fits', asked'⟩, lowered'⟩ := second
  refine ⟨⟨told ++ told', ?_, by rw [asked', asked, List.append_assoc]⟩, ?_⟩
  · rw [List.flatMap_append]
    exact fits.append fits'
  · rw [lowered', lowered, List.countP_append, Nat.add_assoc]

private theorem frame_lowers (nonnegative : Generation.youngest ≤ oldest) (live : store.arena.find? handle = some frame)
    (idle : Generation.youngest ≤ frame.floor)
    (done : Rejuvenation.frame heap oldest seen handle store = .ok answer final) :
    final.arena.find? handle = some (frame.withFloor (frame.lowest heap oldest)) ∧
      (∀ other, other ≠ handle → final.arena.find? other = store.arena.find? other) ∧
      answer.1 = min seen.1 (frame.lowest heap oldest) ∧
      Adds heap oldest [(handle, frame)] seen.2 answer.2 ∧
      (Generation.youngest < frame.lowest heap oldest → frame.Legible) := by
  obtain ⟨chainFloor, before⟩ := seen
  unfold Rejuvenation.frame at done
  dsimp only at done
  rw [EStateM.bind_of_ok (StoreM.askFrame_of_live live)] at done
  rw [if_neg (by rw [Generation.isActive_of_idle idle]; exact Bool.false_ne_true)] at done
  obtain ⟨⟨floor, words⟩, _, asked, done⟩ := EStateM.bind_eq_ok.mp done
  obtain ⟨scanned, rfl⟩ := StoreM.ask_eq_ok.mp asked
  obtain ⟨lowest, told, legible⟩ := youngest_spec nonnegative idle scanned
  rw [← frame.referents_eq] at lowest told
  obtain rfl : floor = frame.lowest heap oldest := lowest
  have told : words.Sublist ([(handle, frame)].flatMap (·.2.referents)) := by rwa [List.flatMap_singleton]
  dsimp only at done
  split at done
  next lower =>
    obtain ⟨_, middle, changed, done⟩ := EStateM.bind_eq_ok.mp done
    obtain rfl := EStateM.modify_eq_ok.mp changed
    obtain ⟨rfl, rfl⟩ := EStateM.pure_eq_ok.mp done
    have counted : [(handle, frame)].countP (·.2.sinks heap oldest) = 1 := by
      rw [List.countP_singleton, if_pos (by simpa [FrozenFrame.sinks] using lower)]
    refine ⟨?_, fun other different => ?_, rfl, ⟨⟨words, told, rfl⟩, by rw [counted]⟩, legible⟩
    · rw [find?_setFrame live, if_pos rfl, FrozenFrame.withFloor]
    · rw [find?_setFrame live, if_neg different]
  next still =>
    obtain ⟨rfl, rfl⟩ := EStateM.pure_eq_ok.mp done
    have same : frame.lowest heap oldest = frame.floor := Int.le_antisymm FrozenFrame.lowest_le (Int.not_lt.mp still)
    have counted : [(handle, frame)].countP (·.2.sinks heap oldest) = 0 := by
      rw [List.countP_singleton, if_neg (by simpa [FrozenFrame.sinks] using still)]
    exact ⟨by rw [same, live, FrozenFrame.withFloor], fun _ _ => rfl, rfl, ⟨⟨words, told, rfl⟩, by rw [counted]; rfl⟩,
      legible⟩

structure Lowers (heap : Word → Generation) (oldest : Generation) (handles : List Handle) (store final : Store) : Prop where
  frames : ∀ handle ∈ handles, ∀ frame, store.arena.find? handle = some frame →
    final.arena.find? handle = some (frame.withFloor (frame.lowest heap oldest))
  others : ∀ handle, handle ∉ handles → final.arena.find? handle = store.arena.find? handle
  legible : ∀ handle ∈ handles, ∀ frame, store.arena.find? handle = some frame →
    Generation.youngest < frame.lowest heap oldest → frame.Legible

private theorem frames_lower (nonnegative : Generation.youngest ≤ oldest) (distinct : handles.Nodup)
    (idle : ∀ handle ∈ handles, ∃ frame, store.arena.find? handle = some frame ∧ Generation.youngest ≤ frame.floor)
    (done : handles.foldlM (Rejuvenation.frame heap oldest) seen store = .ok answer final) :
    Lowers heap oldest handles store final ∧
      answer.1 = (store.lowests heap oldest handles).foldl min seen.1 ∧
      Adds heap oldest (store.listing handles) seen.2 answer.2 := by
  induction handles generalizing seen store with
  | nil =>
    obtain ⟨rfl, rfl⟩ := EStateM.pure_eq_ok.mp done
    exact ⟨⟨by simp, fun _ _ => rfl, by simp⟩, rfl, .none _⟩
  | cons first rest ih =>
    obtain ⟨fresh, distinct⟩ := List.nodup_cons.mp distinct
    rw [List.foldlM_cons] at done
    obtain ⟨next, middle, ran, done⟩ := EStateM.bind_eq_ok.mp done
    obtain ⟨⟨frame, live, here⟩, idle⟩ := List.forall_mem_cons.mp idle
    obtain ⟨now, others, lowest, adds, legible⟩ := frame_lowers nonnegative live here ran
    have same : ∀ handle ∈ rest, middle.arena.find? handle = store.arena.find? handle :=
      fun handle within => others handle fun equal => fresh (equal ▸ within)
    obtain ⟨later, lowest', adds'⟩ := ih distinct (fun handle within => by
      rw [same handle within]
      exact idle handle within) done
    rw [listing_congr same] at adds'
    rw [lowests, listing_congr same, lowest] at lowest'
    refine ⟨⟨?_, ?_, ?_⟩, ?_, ?_⟩
    · refine List.forall_mem_cons.mpr ⟨fun known live' => ?_, fun handle within known live' => ?_⟩
      · obtain rfl := Option.some.inj (live.symm.trans live')
        rw [later.others first fresh, now]
      · exact later.frames handle within known ((same handle within).trans live')
    · intro handle outside
      rw [List.mem_cons, not_or] at outside
      rw [later.others handle outside.2, others handle outside.1]
    · refine List.forall_mem_cons.mpr ⟨fun known live' => ?_, fun handle within known live' => ?_⟩
      · obtain rfl := Option.some.inj (live.symm.trans live')
        exact legible
      · exact later.legible handle within known ((same handle within).trans live')
    · rw [lowest', lowests, listing_cons_of_live live]
      rfl
    · rw [listing_cons_of_live live]
      exact adds.append adds'

/-- What rejuvenating a chain makes of its head and its callees. The head ends with the lowest floor of all, and unless
that is the youngest generation all floors are where they should be. -/
structure Brings (heap : Word → Generation) (oldest : Generation) (head : Handle) (callees : List Handle)
    (store final : Store) : Prop where
  below : ∀ handle ∈ callees, ∀ frame, store.arena.find? handle = some frame →
    final.arena.find? handle = some (frame.withFloor (frame.lowest heap oldest))
  top : ∃ frame floor, store.arena.find? head = some frame ∧
    (store.lowests heap oldest (head :: callees)).min? = some floor ∧
    final.arena.find? head = some (frame.withFloor floor)
  settled : ∀ floor, final.floor? head = some floor → Generation.youngest < floor →
    ∀ handle ∈ head :: callees, ∀ frame, final.arena.find? handle = some frame → frame.Settled heap oldest

variable {middle : Store} {roster : Roster} {callees before : List Handle} {head : Handle} {condemned : Generation}

theorem Lowers.brings {floor : Generation} (lowers : Lowers heap oldest (head :: callees) store middle)
    (nonnegative : Generation.youngest ≤ oldest) (distinct : (head :: callees).Nodup)
    (present : ∀ handle ∈ head :: callees, (store.arena.find? handle).isSome)
    (live : store.arena.find? head = some frame)
    (least : (store.lowests heap oldest (head :: callees)).min? = some floor)
    (now : ∀ other, final.arena.find? other =
      if other = head then some (frame.withFloor floor) else middle.arena.find? other) :
    Brings heap oldest head callees store final := by
  have top : final.arena.find? head = some (frame.withFloor floor) := by rw [now, if_pos rfl]
  refine ⟨fun handle inside known held => ?_, ⟨frame, floor, live, least, top⟩, ?_⟩
  · have different : handle ≠ head := fun same => (List.nodup_cons.mp distinct).1 (same ▸ inside)
    rw [now, if_neg different, lowers.frames handle (List.mem_cons_of_mem _ inside) known held]
  · intro bottom known above handle inside current held
    obtain rfl : floor = bottom := by
      rw [floor?_of_frame top] at known
      exact Option.some.inj known
    obtain ⟨old, was⟩ := Option.isSome_iff_exists.mp (present handle inside)
    have low : floor ≤ old.lowest heap oldest := (List.min?_eq_some_iff.mp least).2 _ (mem_lowests inside was)
    have legible := lowers.legible handle inside old was (Int.lt_of_lt_of_le above low)
    rw [now] at held
    split at held
    next same =>
      obtain rfl := Option.some.inj (live.symm.trans (same ▸ was))
      exact Option.some.inj held ▸ FrozenFrame.settled_of_low nonnegative legible low
    next =>
      rw [lowers.frames handle inside old was] at held
      exact Option.some.inj held ▸ FrozenFrame.settled_of_low nonnegative legible (Int.le_refl _)

private theorem chain_cases {done answer : Rejuvenation} (valid : Valid store roster)
    (nonnegative : Generation.youngest ≤ oldest) (member : before ++ [head] ∈ roster.chains)
    (ran : Rejuvenation.chain heap oldest condemned done head store = .ok answer final) :
    store.ripe condemned head = false ∧ answer = done ∧ final = store ∨
      store.ripe condemned head = true ∧ Brings heap oldest head before.reverse store final ∧
        (∀ handle, handle ∉ before ++ [head] → final.arena.find? handle = store.arena.find? handle) ∧
        Adds heap oldest (store.listing (head :: before.reverse)) done answer := by
  unfold Rejuvenation.chain at ran
  obtain ⟨frame, _, asked, ran⟩ := EStateM.bind_eq_ok.mp ran
  obtain ⟨known, rfl⟩ := StoreM.ask_eq_ok.mp asked
  have live := StoreM.frame_eq_ok.mp known
  dsimp only at ran
  split at ran
  next exempt =>
    obtain ⟨rfl, rfl⟩ := EStateM.pure_eq_ok.mp ran
    refine .inl ⟨Bool.eq_false_iff.mpr fun ripe => ?_, rfl, rfl⟩
    obtain ⟨above, below⟩ := (ripe_iff live).mp ripe
    simp [Int.not_le.mpr above, Int.not_lt.mpr below] at exempt
  next ripe =>
    simp only [Bool.or_eq_true, decide_eq_true_eq, not_or, Int.not_le, gt_iff_lt, Int.not_lt] at ripe
    have ripe := (ripe_iff live).mpr ripe
    obtain ⟨members, _, asked, ran⟩ := EStateM.bind_eq_ok.mp ran
    obtain ⟨listed, rfl⟩ := StoreM.ask_eq_ok.mp asked
    obtain ⟨⟨chainFloor, seen⟩, middle, lowered, ran⟩ := EStateM.bind_eq_ok.mp ran
    obtain ⟨_, last, changed, ran⟩ := EStateM.bind_eq_ok.mp ran
    obtain ⟨rfl, rfl⟩ := EStateM.pure_eq_ok.mp ran
    obtain ⟨current, top, rfl⟩ := StoreM.changeFrame_eq_ok.mp changed
    rw [chainMembers_eq (valid.linked _ member) (valid.chain_distinct member)] at listed
    cases listed
    have distinct : (head :: before.reverse).Nodup := by
      simpa using List.nodup_reverse.mpr (valid.chain_distinct member)
    have within : ∀ other, other ∈ head :: before.reverse ↔ other ∈ before ++ [head] := by simp [or_comm]
    have present : ∀ handle ∈ head :: before.reverse, (store.arena.find? handle).isSome :=
      fun handle inside => valid.live_of_mem member ((within handle).mp inside)
    have idle : ∀ handle ∈ head :: before.reverse, ∃ frame, store.arena.find? handle = some frame ∧
        Generation.youngest ≤ frame.floor := by
      intro handle inside
      obtain ⟨other, held⟩ := Option.isSome_iff_exists.mp (present handle inside)
      exact ⟨other, held, valid.idle_of_ripe member ripe ((within handle).mp inside) held⟩
    obtain ⟨lowers, lowest, adds⟩ := frames_lower nonnegative distinct idle lowered
    -- the head has come down with the others before it takes the lowest floor
    obtain rfl := Option.some.inj (top.symm.trans (lowers.frames head List.mem_cons_self frame live))
    have least : (store.lowests heap oldest (head :: before.reverse)).min? =
        some (min (frame.lowest heap oldest) chainFloor) := by
      rw [show chainFloor = _ from lowest, lowests, listing_cons_of_live live, List.map_cons, List.min?_cons',
        List.foldl_cons, Int.min_eq_right FrozenFrame.lowest_le, Int.min_eq_right foldl_min_le]
    refine .inr ⟨ripe, lowers.brings nonnegative distinct present live least (find?_setFrame top _),
      fun handle outside => ?_, adds⟩
    have different : handle ≠ head := fun same => outside (by simp [same])
    rw [find?_setFrame top, if_neg different, lowers.others handle (by rwa [within])]

theorem Brings.congr {store' final' : Store} (brings : Brings heap oldest head callees store final)
    (before : ∀ handle ∈ head :: callees, store'.arena.find? handle = store.arena.find? handle)
    (after : ∀ handle ∈ head :: callees, final'.arena.find? handle = final.arena.find? handle) :
    Brings heap oldest head callees store' final' := by
  obtain ⟨below, ⟨frame, floor, live, least, top⟩, settled⟩ := brings
  refine ⟨fun handle inside known held => ?_, ⟨frame, floor, ?_, ?_, ?_⟩, fun bottom known above handle inside current held => ?_⟩
  · rw [after handle (List.mem_cons_of_mem _ inside)]
    rw [before handle (List.mem_cons_of_mem _ inside)] at held
    exact below handle inside known held
  · rw [before head List.mem_cons_self, live]
  · rw [lowests, listing_congr before]
    exact least
  · rw [after head List.mem_cons_self, top]
  · rw [floor?, after head List.mem_cons_self] at known
    rw [after handle inside] at held
    exact settled bottom known above handle inside current held

end Rejuvenation

namespace Store
open Rejuvenation

variable {store middle final : Store} {roster : Roster} {chains : List (List Handle)} {before : List Handle}
  {head : Handle} {heap : Word → Generation} {condemned oldest : Generation}

def chainOf (store : Store) (head : Handle) : List Handle := (store.chainMembers head).toOption.getD []

theorem Represents.chainOf_eq (valid : Represents store roster) (member : before ++ [head] ∈ roster.chains) :
    store.chainOf head = head :: before.reverse := by
  rw [chainOf, chainMembers_eq (valid.linked _ member) (valid.chain_distinct member)]
  rfl

theorem Represents.exists_chainOf (valid : Represents store roster) (shown : head ∈ roster.heads) :
    ∃ before, before ++ [head] ∈ roster.chains ∧ store.chainOf head = head :: before.reverse := by
  obtain ⟨before, member⟩ := mem_heads_iff.mp shown
  have member := List.mem_append_left roster.hidden member
  exact ⟨before, member, valid.chainOf_eq member⟩

theorem Represents.head_unique {other handle : Handle} (valid : Represents store roster) (shown : head ∈ roster.heads)
    (also : other ∈ roster.heads) (inside : handle ∈ store.chainOf head) (inside' : handle ∈ store.chainOf other) :
    head = other := by
  obtain ⟨before, member, listed⟩ := valid.exists_chainOf shown
  obtain ⟨before', member', listed'⟩ := valid.exists_chainOf also
  rw [listed] at inside
  rw [listed'] at inside'
  have same := eq_of_shared valid.distinct member member' (show handle ∈ _ by simpa [or_comm] using inside)
    (by simpa [or_comm] using inside')
  exact (List.cons.inj (List.append_inj' same rfl).2).1

/-- What rejuvenation has made of some chains, and of nothing else. -/
structure Rejuvenated (heap : Word → Generation) (condemned oldest : Generation) (heads : List Handle)
    (store final : Store) : Prop where
  chains : ∀ head ∈ heads, store.ripe condemned head = true →
    ∃ callees, store.chainOf head = head :: callees ∧ Brings heap oldest head callees store final
  others : ∀ handle, (∀ head ∈ heads, store.ripe condemned head = true → handle ∉ store.chainOf head) →
    final.arena.find? handle = store.arena.find? handle

def ripeListing (store : Store) (condemned : Generation) (heads : List Handle) : List (Handle × FrozenFrame) :=
  (heads.filter (store.ripe condemned)).flatMap fun head => store.listing (store.chainOf head)

def ripeReferents (store : Store) (condemned : Generation) (heads : List Handle) : List Word :=
  (heads.filter (store.ripe condemned)).flatMap fun head => store.referents (store.chainOf head)

theorem ripeReferents_eq (store : Store) (condemned : Generation) (heads : List Handle) :
    store.ripeReferents condemned heads = (store.ripeListing condemned heads).flatMap (·.2.referents) :=
  List.flatMap_assoc.symm

theorem ripe_congr (same : final.arena.find? head = store.arena.find? head) :
    final.ripe condemned head = store.ripe condemned head := by
  rw [ripe, ripe, floor?, floor?, same]

theorem rejuvenated_of_chains {done answer : Rejuvenation} (valid : Valid store roster)
    (nonnegative : Generation.youngest ≤ oldest) (within : chains ⊆ roster.chains) (distinct : chains.flatten.Nodup)
    (ran : (chains.filterMap List.getLast?).foldlM (Rejuvenation.chain heap oldest condemned) done store =
      .ok answer final) :
    Rejuvenated heap condemned oldest (chains.filterMap List.getLast?) store final ∧
      Adds heap oldest (store.ripeListing condemned (chains.filterMap List.getLast?)) done answer := by
  induction chains generalizing done store with
  | nil =>
    obtain ⟨rfl, rfl⟩ := EStateM.pure_eq_ok.mp ran
    exact ⟨⟨by simp, fun _ _ => rfl⟩, .none _⟩
  | cons chain rest ih =>
    have member := within List.mem_cons_self
    obtain ⟨before, head, rfl⟩ : ∃ before head, chain = before ++ [head] :=
      ⟨_, _, (List.dropLast_append_getLast (valid.inhabited chain member)).symm⟩
    rw [List.filterMap_cons_some (show _ = some head by simp)] at ran ⊢
    rw [List.foldlM_cons] at ran
    obtain ⟨next, middle, here, ran⟩ := EStateM.bind_eq_ok.mp ran
    rw [List.flatten_cons, List.nodup_append] at distinct
    obtain ⟨_, distinct, apart⟩ := distinct
    have still := chain_valid valid member here
    obtain ⟨later, adds'⟩ :=
      ih still (fun other inside => within (List.mem_cons_of_mem _ inside)) distinct ran
    rcases chain_cases valid nonnegative member here with ⟨exempt, rfl, rfl⟩ | ⟨ripe, brings, others, adds⟩
    · refine ⟨⟨List.forall_mem_cons.mpr ⟨fun ripe => ?_, later.chains⟩, fun handle outside => ?_⟩, ?_⟩
      · exact absurd (exempt.symm.trans ripe) Bool.false_ne_true
      · exact later.others handle (List.forall_mem_cons.mp outside).2
      · rwa [ripeListing, List.filter_cons_of_neg (by simp [exempt])]
    · have ours := valid.chainOf_eq member
      have among : ∀ handle, handle ∈ store.chainOf head ↔ handle ∈ before ++ [head] := by simp [ours, or_comm]
      -- the chains that are still to come are as they were, and this one stays as it is now
      have ahead : ∀ other ∈ rest.filterMap List.getLast?, other ∈ store.chainOf other ∧
          middle.chainOf other = store.chainOf other ∧ ∀ handle ∈ store.chainOf other, handle ∉ before ++ [head] := by
        intro other shown
        obtain ⟨chain, inside, last⟩ := List.mem_filterMap.mp shown
        obtain ⟨lower, rfl⟩ := List.getLast?_eq_some_iff.mp last
        have member' := within (List.mem_cons_of_mem _ inside)
        rw [valid.chainOf_eq member', still.chainOf_eq member']
        refine ⟨List.mem_cons_self, rfl, fun handle inner also => apart handle also handle ?_ rfl⟩
        exact List.mem_flatten.mpr ⟨_, inside, by simpa [or_comm] using inner⟩
      have unmoved : ∀ other ∈ rest.filterMap List.getLast?, ∀ handle ∈ store.chainOf other,
          middle.arena.find? handle = store.arena.find? handle :=
        fun other shown handle inner => others handle ((ahead other shown).2.2 handle inner)
      have ripens : ∀ other ∈ rest.filterMap List.getLast?, middle.ripe condemned other = store.ripe condemned other :=
        fun other shown => ripe_congr (unmoved other shown other (ahead other shown).1)
      have kept : ∀ handle ∈ before ++ [head], final.arena.find? handle = middle.arena.find? handle := by
        refine fun handle inner => later.others handle fun other shown _ also => ?_
        obtain ⟨_, same, outside⟩ := ahead other shown
        exact outside handle (same ▸ also) inner
      refine ⟨⟨List.forall_mem_cons.mpr ⟨fun _ => ⟨_, ours, ?_⟩, fun other shown ripe => ?_⟩, fun handle outside => ?_⟩,
        ?_⟩
      · refine brings.congr (fun _ _ => rfl) fun handle inner => kept handle ?_
        rwa [← among, ours]
      · obtain ⟨callees, same, brought⟩ := later.chains other shown ((ripens other shown).trans ripe)
        rw [(ahead other shown).2.1] at same
        refine ⟨callees, same, brought.congr (fun handle inner => ?_) fun _ _ => rfl⟩
        exact (unmoved other shown handle (same ▸ inner)).symm
      · obtain ⟨here, there⟩ := List.forall_mem_cons.mp outside
        rw [later.others handle fun other shown ripe => ?_, others handle fun inner => here ripe ((among handle).mpr inner)]
        rw [(ahead other shown).2.1]
        exact there other shown ((ripens other shown).symm.trans ripe)
      · rw [ripeListing, List.filter_cons_of_pos ripe, List.flatMap_cons, ours]
        refine adds.append ?_
        rw [ripeListing, List.filter_congr ripens] at adds'
        refine (List.flatMap_congr fun other shown => ?_) ▸ adds'
        have shown := (List.mem_filter.mp shown).1
        rw [(ahead other shown).2.1, listing_congr (unmoved other shown)]

end Store
end CallStacks.Frozen
