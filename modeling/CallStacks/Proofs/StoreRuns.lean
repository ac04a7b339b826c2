import CallStacks.Frozen.Store
import CallStacks.Proofs.StatefulRuns

/-! How operations on the store run. A run of a composed operation is made of runs of its parts, so
a relation between stores that composes holds across a run if it holds across every part. -/

universe u v

namespace CallStacks.Failure

variable {α ρ φ : Type} {answer : α}

theorem bind_eq_ok {ε β : Type} {part : Except ε β} {next : β → Except ε α} :
    (part >>= next) = .ok answer ↔ ∃ value, part = .ok value ∧ next value = .ok answer := by
  cases part <;> simp [bind, Except.bind]

theorem bind_eq_error {ε β : Type} {part : Except ε β} {next : β → Except ε α} {failure : ε} :
    (part >>= next) = .error failure ↔
      part = .error failure ∨ ∃ value, part = .ok value ∧ next value = .error failure := by
  cases part <;> simp [bind, Except.bind]

theorem map_eq_ok {ε β : Type} {part : Except ε β} {change : β → α} :
    change <$> part = .ok answer ↔ ∃ value, part = .ok value ∧ change value = answer := by
  cases part <;> simp [Functor.map, Except.map]

theorem mapError_ok {ε ε' : Type} (value : α) (change : ε → ε') :
    (Except.ok value).mapError change = .ok value := rfl

theorem ofStop_eq_ok {part : Except φ α} :
    (ofStop part : Except (Failure ρ φ) α) = .ok answer ↔ part = .ok answer := by
  cases part <;> simp [ofStop]

theorem ofStop_eq_error {part : Except φ α} {failure : Failure ρ φ} :
    ofStop part = .error failure ↔ ∃ fault, part = .error fault ∧ failure = .stopped fault := by
  cases part <;> simp [ofStop, eq_comm]

theorem ofRefusal_eq_ok {part : Except ρ α} :
    (ofRefusal part : Except (Failure ρ φ) α) = .ok answer ↔ part = .ok answer := by
  cases part <;> simp [ofRefusal]

theorem exists_of_isOk {ε : Type} {part : Except ε α} (succeeds : part.isOk = true) :
    ∃ answer, part = .ok answer := by
  cases part with
  | ok answer => exact ⟨answer, rfl⟩
  | error failure => cases succeeds

theorem foldlM_invariant {ε : Type} {σ : Type u} {β : Type v} (invariant : σ → Prop) {step : σ → β → Except ε σ}
    {items : List β} {start last : σ} (done : items.foldlM step start = .ok last) (holds : invariant start)
    (kept : ∀ item ∈ items, ∀ seen next, invariant seen → step seen item = .ok next → invariant next) :
    invariant last := by
  induction items generalizing start with
  | nil =>
    cases done
    exact holds
  | cons first rest ih =>
    rw [List.foldlM_cons] at done
    cases ran : step start first with
    | error =>
      rw [ran] at done
      cases done
    | ok next =>
      rw [ran] at done
      exact ih done (kept first List.mem_cons_self _ _ holds ran)
        fun item within => kept item (List.mem_cons_of_mem _ within)

/-- The answer, if it is a failure, is one of those that are allowed. -/
def FailsAs {ε : Type} (allowed : ε → Prop) (part : Except ε α) : Prop :=
  ∀ failure, part = .error failure → allowed failure

namespace FailsAs

variable {ε β : Type} {allowed : ε → Prop} {failure : ε}

theorem ok (value : α) : FailsAs allowed (.ok value) := fun _ same => by cases same

theorem error (fits : allowed failure) : FailsAs allowed (.error failure : Except ε α) := fun _ same => by
  cases same
  exact fits

theorem mono {other : ε → Prop} {part : Except ε α} (fails : FailsAs allowed part)
    (implies : ∀ failure, allowed failure → other failure) : FailsAs other part :=
  fun failure failed => implies failure (fails failure failed)

theorem bind_ran {part : Except ε β} {next : β → Except ε α} (first : FailsAs allowed part)
    (later : ∀ value, part = .ok value → FailsAs allowed (next value)) : FailsAs allowed (part >>= next) := by
  intro failure failed
  rcases bind_eq_error.mp failed with failed | ⟨value, ran, failed⟩
  · exact first failure failed
  · exact later value ran failure failed

theorem bind {part : Except ε β} {next : β → Except ε α} (first : FailsAs allowed part)
    (later : ∀ value, FailsAs allowed (next value)) : FailsAs allowed (part >>= next) :=
  first.bind_ran fun value _ => later value

/-- A fold fails in one of its steps, at a value that has what the steps before it keep. -/
theorem foldlM_kept (invariant : α → Prop) {step : α → β → Except ε α} {start : α} {items : List β}
    (holds : invariant start)
    (kept : ∀ item ∈ items, ∀ seen next, invariant seen → step seen item = .ok next → invariant next)
    (each : ∀ item ∈ items, ∀ seen, invariant seen → FailsAs allowed (step seen item)) :
    FailsAs allowed (items.foldlM step start) := by
  induction items generalizing start with
  | nil => exact ok start
  | cons item rest ih =>
    rw [List.foldlM_cons]
    refine bind_ran (each item List.mem_cons_self start holds) fun next ran => ?_
    exact ih (kept item List.mem_cons_self start next holds ran)
      (fun other within => kept other (List.mem_cons_of_mem _ within))
      fun other within => each other (List.mem_cons_of_mem _ within)

theorem foldlM {step : α → β → Except ε α} {start : α} {items : List β}
    (each : ∀ seen item, FailsAs allowed (step seen item)) : FailsAs allowed (items.foldlM step start) :=
  foldlM_kept (fun _ => True) trivial (fun _ _ _ _ _ _ => trivial) fun item _ seen _ => each seen item

end FailsAs

end CallStacks.Failure

theorem CallStacks.Frozen.insist_eq_ok {α : Type} {part : Except Refusal α} {answer : α} :
    insist part = .ok answer ↔ part = .ok answer := by
  cases part <;> simp [insist]

namespace CallStacks.Frozen.StoreM

variable {α β : Type} {store final : Store}

theorem ask_eq_ok {question : Store → Except Failure α} {answer : α} :
    ask question store = .ok answer final ↔ question store = .ok answer ∧ store = final := by
  unfold ask
  cases question store <;> simp

theorem ask_of_ok {question : Store → Except Failure α} {answer : α}
    (known : question store = .ok answer) : ask question store = .ok answer store :=
  ask_eq_ok.mpr ⟨known, rfl⟩

theorem insisting_eq_ok {operation : StoreM α} {answer : α} :
    insisting operation store = .ok answer final ↔ operation store = .ok answer final := by
  unfold insisting
  cases operation store <;> simp

theorem frame_eq_ok {handle : Handle} {frame : FrozenFrame} :
    store.frame handle = .ok frame ↔ store.arena.find? handle = some frame := by
  unfold Store.frame Arena.get
  cases store.arena.find? handle <;> simp [Failure.ofOption, CallStacks.Failure.ofRefusal]

theorem frame_of_stale {handle : Handle} (stale : store.arena.find? handle = none) :
    store.frame handle = .error (.refused (.stale handle)) := by
  simp [Store.frame, Arena.get, stale, Failure.ofOption, CallStacks.Failure.ofRefusal]

theorem askFrame_of_live {handle : Handle} {frame : FrozenFrame}
    (live : store.arena.find? handle = some frame) :
    ask (·.frame handle) store = .ok frame store :=
  ask_of_ok (frame_eq_ok.mpr live)

theorem changeFrame_eq_ok {handle : Handle} {change : FrozenFrame → FrozenFrame} {answer : Unit} :
    changeFrame handle change store = .ok answer final ↔
      ∃ frame, store.arena.find? handle = some frame ∧
        store.setFrame handle (change frame) = final := by
  unfold changeFrame
  simp only [EStateM.bind_eq_ok, ask_eq_ok, EStateM.modify_eq_ok, frame_eq_ok]
  constructor
  · rintro ⟨frame, middle, ⟨live, rfl⟩, same⟩
    exact ⟨frame, live, same⟩
  · rintro ⟨frame, live, same⟩
    exact ⟨frame, store, ⟨live, rfl⟩, same⟩

theorem changeFrame_of_live {handle : Handle} {frame : FrozenFrame}
    (live : store.arena.find? handle = some frame) (change : FrozenFrame → FrozenFrame) :
    changeFrame handle change store = .ok () (store.setFrame handle (change frame)) :=
  changeFrame_eq_ok.mpr ⟨frame, live, rfl⟩

theorem tryFrame_eq_ok {handle : Handle} {change : FrozenFrame → Except Failure FrozenFrame}
    {answer : Unit} :
    tryFrame handle change store = .ok answer final ↔
      ∃ frame changed, store.arena.find? handle = some frame ∧ change frame = .ok changed ∧
        store.setFrame handle changed = final := by
  unfold tryFrame
  simp only [EStateM.bind_eq_ok, ask_eq_ok, EStateM.modify_eq_ok]
  constructor
  · rintro ⟨changed, middle, ⟨answered, rfl⟩, same⟩
    cases live : store.frame handle with
    | error failure => simp [live, bind, Except.bind] at answered
    | ok frame =>
      simp only [live, bind, Except.bind] at answered
      exact ⟨frame, changed, frame_eq_ok.mp live, answered, same⟩
  · rintro ⟨frame, changed, live, answered, same⟩
    refine ⟨changed, store, ⟨?_, rfl⟩, same⟩
    simp only [frame_eq_ok.mpr live, bind, Except.bind, answered]

theorem changeFrame_eq_tryFrame (handle : Handle) (change : FrozenFrame → FrozenFrame) :
    changeFrame handle change = tryFrame handle fun frame => .ok (change frame) := by
  funext store
  unfold changeFrame tryFrame
  cases known : store.frame handle <;> simp [bind, EStateM.bind, ask, known, Except.bind]

theorem ask_eq_error {question : Store → Except Failure α} {failure : Failure} :
    ask question store = .error failure final ↔ question store = .error failure ∧ store = final := by
  unfold ask
  cases question store <;> simp

theorem insisting_eq_error {operation : StoreM α} {failure : Failure} :
    insisting operation store = .error failure final ↔
      ∃ cause, operation store = .error cause final ∧ failure = .stopped cause.fault := by
  unfold insisting
  cases operation store with
  | ok answer reached => simp
  | error cause reached =>
    simp only [EStateM.Result.error.injEq]
    exact ⟨fun ⟨same, here⟩ => ⟨cause, ⟨rfl, here⟩, same.symm⟩, fun ⟨_, ⟨same, here⟩, told⟩ => ⟨same ▸ told.symm, here⟩⟩

/-- Every run of the operation that succeeds relates the stores at its two ends. -/
def Respects (relation : Store → Store → Prop) (operation : StoreM α) : Prop :=
  ∀ store answer final, operation store = .ok answer final → relation store final

variable {relation : Store → Store → Prop}

theorem Respects.bind {first : StoreM α} {next : α → StoreM β}
    (trans : ∀ {a b c}, relation a b → relation b c → relation a c)
    (before : Respects relation first) (after : ∀ value, Respects relation (next value)) :
    Respects relation (first >>= next) := by
  intro store answer final done
  obtain ⟨value, middle, ran, rest⟩ := EStateM.bind_eq_ok.mp done
  exact trans (before _ _ _ ran) (after value _ _ _ rest)

theorem Respects.pure (refl : ∀ store, relation store store) (value : α) :
    Respects relation (pure value : StoreM α) := by
  intro store answer final done
  obtain ⟨_, rfl⟩ := EStateM.pure_eq_ok.mp done
  exact refl store

theorem Respects.throw (failure : Failure) :
    Respects relation (throw failure : StoreM α) :=
  fun _ _ _ done => (EStateM.throw_eq_ok.mp done).elim

theorem Respects.throw_bind (failure : Failure) (next : α → StoreM β) :
    Respects relation ((MonadExcept.throw failure : StoreM α) >>= next) := by
  intro store answer final done
  obtain ⟨_, _, thrown, _⟩ := EStateM.bind_eq_ok.mp done
  exact (EStateM.throw_eq_ok.mp thrown).elim

theorem Respects.ask (refl : ∀ store, relation store store)
    (question : Store → Except Failure α) : Respects relation (ask question) := by
  intro store answer final done
  obtain ⟨_, rfl⟩ := ask_eq_ok.mp done
  exact refl store

theorem Respects.modify {change : Store → Store} (kept : ∀ store, relation store (change store)) :
    Respects relation (modify change : StoreM PUnit) := by
  intro store answer final done
  rw [← EStateM.modify_eq_ok.mp done]
  exact kept store

theorem Respects.insisting {operation : StoreM α} (kept : Respects relation operation) :
    Respects relation (insisting operation) :=
  fun _ _ _ done => kept _ _ _ (insisting_eq_ok.mp done)

theorem Respects.optionForM {step : α → StoreM PUnit} (refl : ∀ store, relation store store)
    (item : Option α) (kept : ∀ item, Respects relation (step item)) :
    Respects relation (item.forM step) := by
  cases item with
  | none => exact Respects.pure refl _
  | some item => exact kept item

theorem Respects.forM {step : α → StoreM PUnit} (refl : ∀ store, relation store store)
    (trans : ∀ {a b c}, relation a b → relation b c → relation a c) (items : List α)
    (kept : ∀ item ∈ items, Respects relation (step item)) :
    Respects relation (items.forM step) := by
  induction items with
  | nil => exact Respects.pure refl _
  | cons first rest ih =>
    change Respects relation (step first >>= fun _ => rest.forM step)
    exact .bind trans (kept first (by simp))
      fun _ => ih fun item member => kept item (by simp [member])

theorem Respects.mapM {step : α → StoreM β} (refl : ∀ store, relation store store)
    (trans : ∀ {a b c}, relation a b → relation b c → relation a c) (items : List α)
    (kept : ∀ item, Respects relation (step item)) : Respects relation (items.mapM step) := by
  induction items with
  | nil => exact Respects.pure refl _
  | cons first rest ih =>
    rw [List.mapM_cons]
    exact .bind trans (kept first) fun _ => .bind trans ih fun _ => .pure refl _

theorem Respects.foldlM {step : β → α → StoreM β} (refl : ∀ store, relation store store)
    (trans : ∀ {a b c}, relation a b → relation b c → relation a c) (items : List α) (start : β)
    (kept : ∀ item ∈ items, ∀ seen, Respects relation (step seen item)) :
    Respects relation (items.foldlM step start) := by
  induction items generalizing start with
  | nil => exact Respects.pure refl _
  | cons first rest ih =>
    rw [List.foldlM_cons]
    exact .bind trans (kept first (by simp) start)
      fun seen => ih seen fun item member => kept item (by simp [member])

theorem foldlM_invariant (invariant : Store → Prop) {step : β → α → StoreM β} {items : List α}
    {start answer : β} (done : items.foldlM step start store = .ok answer final)
    (holds : invariant store)
    (kept : ∀ item ∈ items, ∀ seen answer store final, invariant store →
      step seen item store = .ok answer final → invariant final) : invariant final := by
  induction items generalizing store start with
  | nil =>
    obtain ⟨_, rfl⟩ := EStateM.pure_eq_ok.mp done
    exact holds
  | cons first rest ih =>
    rw [List.foldlM_cons] at done
    obtain ⟨next, middle, ran, done⟩ := EStateM.bind_eq_ok.mp done
    exact ih done (kept first (by simp) _ _ _ _ holds ran)
      fun item within => kept item (by simp [within])

theorem foldlM_still (holds : β → Prop) {step : β → α → StoreM β} {items : List α} {start : β}
    (held : holds start) (still : ∀ item ∈ items, ∀ seen, holds seen →
      ∃ answer, step seen item store = .ok answer store ∧ holds answer) :
    ∃ answer, items.foldlM step start store = .ok answer store ∧ holds answer := by
  induction items generalizing start with
  | nil => exact ⟨start, rfl, held⟩
  | cons first rest ih =>
    obtain ⟨next, ran, held⟩ := still first List.mem_cons_self start held
    obtain ⟨answer, others, held⟩ := ih held fun item within => still item (List.mem_cons_of_mem _ within)
    exact ⟨answer, by rw [List.foldlM_cons, EStateM.bind_of_ok ran, others], held⟩

/-- A loop fails in one of its steps, at a store that has what the steps before it keep. -/
theorem foldlM_failure (invariant : Store → Prop) {step : β → α → StoreM β} {items : List α} {start : β}
    {failure : Failure} (failed : items.foldlM step start store = .error failure final) (holds : invariant store)
    (kept : ∀ item ∈ items, ∀ seen answer store final, invariant store →
      step seen item store = .ok answer final → invariant final) :
    ∃ item ∈ items, ∃ seen middle, invariant middle ∧ step seen item middle = .error failure final := by
  induction items generalizing store start with
  | nil => exact (EStateM.pure_eq_error.mp failed).elim
  | cons first rest ih =>
    rw [List.foldlM_cons] at failed
    rcases EStateM.bind_eq_error.mp failed with failed | ⟨next, middle, ran, failed⟩
    · exact ⟨first, List.mem_cons_self, start, store, holds, failed⟩
    · obtain ⟨item, within, broken⟩ := ih failed (kept first List.mem_cons_self _ _ _ _ holds ran)
        fun item within => kept item (List.mem_cons_of_mem _ within)
      exact ⟨item, List.mem_cons_of_mem _ within, broken⟩

theorem forM_failure (invariant : Store → Prop) {step : α → StoreM PUnit} {items : List α} {failure : Failure}
    (failed : items.forM step store = .error failure final) (holds : invariant store)
    (kept : ∀ item ∈ items, ∀ store final, invariant store → step item store = .ok () final → invariant final) :
    ∃ item ∈ items, ∃ middle, invariant middle ∧ step item middle = .error failure final := by
  induction items generalizing store with
  | nil => exact (EStateM.pure_eq_error.mp failed).elim
  | cons first rest ih =>
    change (step first >>= fun _ => rest.forM step) store = _ at failed
    rcases EStateM.bind_eq_error.mp failed with failed | ⟨_, middle, ran, failed⟩
    · exact ⟨first, List.mem_cons_self, store, holds, failed⟩
    · obtain ⟨item, within, broken⟩ := ih failed (kept first List.mem_cons_self _ _ holds ran)
        fun item within => kept item (List.mem_cons_of_mem _ within)
      exact ⟨item, List.mem_cons_of_mem _ within, broken⟩

end CallStacks.Frozen.StoreM
