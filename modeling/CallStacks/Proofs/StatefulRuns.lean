/-! Runs of stateful operations. A run ends in an answer or in a failure, with the state as it then is, and a run of a
composed operation is made of runs of its parts. -/

namespace EStateM

variable {ε σ α β : Type} {state between final : σ} {failure : ε}

theorem outcome_unique {operation : EStateM ε σ α} {answer other : α} {reached : σ}
    (done : operation state = .ok answer final) (ran : operation state = .ok other reached) :
    other = answer ∧ reached = final := by
  rw [done] at ran
  cases ran
  exact ⟨rfl, rfl⟩

section
variable {first : EStateM ε σ β} {next : β → EStateM ε σ α} {value : β} {answer : α}

theorem bind_of_ok (ran : first state = .ok value between) : (first >>= next) state = next value between := by
  change EStateM.bind first next state = _
  simp only [EStateM.bind, ran]

theorem bind_of_error (failed : first state = .error failure final) :
    (first >>= next) state = .error failure final := by
  change EStateM.bind first next state = _
  simp only [EStateM.bind, failed]

theorem bind_eq_ok : (first >>= next) state = .ok answer final ↔
    ∃ value between, first state = .ok value between ∧ next value between = .ok answer final := by
  constructor
  · intro done
    cases ran : first state with
    | ok value between => exact ⟨value, between, rfl, (bind_of_ok ran).symm.trans done⟩
    | error cause last => cases (bind_of_error ran).symm.trans done
  · rintro ⟨value, between, ran, rest⟩
    exact (bind_of_ok ran).trans rest

theorem bind_eq_error : (first >>= next) state = .error failure final ↔ first state = .error failure final ∨
    ∃ value between, first state = .ok value between ∧ next value between = .error failure final := by
  constructor
  · intro failed
    cases ran : first state with
    | ok value between => exact .inr ⟨value, between, rfl, (bind_of_ok ran).symm.trans failed⟩
    | error cause last =>
      cases (bind_of_error ran).symm.trans failed
      exact .inl rfl
  · rintro (failed | ⟨value, between, ran, rest⟩)
    · exact bind_of_error failed
    · exact (bind_of_ok ran).trans rest

end

theorem pure_eq_ok {value answer : α} :
    (pure value : EStateM ε σ α) state = .ok answer final ↔ value = answer ∧ state = final := by
  change Result.ok value state = _ ↔ _
  simp

theorem pure_eq_error {value : α} : (pure value : EStateM ε σ α) state = .error failure final ↔ False := by
  change Result.ok value state = _ ↔ _
  simp

theorem throw_eq_ok {cause : ε} {answer : α} :
    (throw cause : EStateM ε σ α) state = .ok answer final ↔ False := by
  change Result.error cause state = _ ↔ _
  simp

theorem get_eq_ok {answer : σ} : (get : EStateM ε σ σ) state = .ok answer final ↔ state = answer ∧ state = final := by
  change Result.ok state state = _ ↔ _
  simp

theorem modify_eq_ok {change : σ → σ} {answer : PUnit} :
    (modify change : EStateM ε σ PUnit) state = .ok answer final ↔ change state = final := by
  change Result.ok PUnit.unit (change state) = _ ↔ _
  simp

theorem modify_eq_error {change : σ → σ} :
    (modify change : EStateM ε σ PUnit) state = .error failure final ↔ False := by
  change Result.ok PUnit.unit (change state) = _ ↔ _
  simp

theorem discard_eq_ok {operation : EStateM ε σ α} {answer : PUnit} :
    (discard operation : EStateM ε σ PUnit) state = .ok answer final ↔ ∃ value, operation state = .ok value final := by
  change EStateM.map (fun _ => PUnit.unit) operation state = _ ↔ _
  unfold EStateM.map
  cases operation state <;> simp

theorem forM_cons_eq_ok {step : α → EStateM ε σ PUnit} {first : α} {rest : List α} {answer : PUnit} :
    (first :: rest).forM step state = .ok answer final ↔
      ∃ between, step first state = .ok () between ∧ rest.forM step between = .ok answer final := by
  change (step first >>= fun _ => rest.forM step) state = _ ↔ _
  rw [bind_eq_ok]
  exact ⟨fun ⟨_, between, both⟩ => ⟨between, both⟩, fun ⟨between, both⟩ => ⟨(), between, both⟩⟩

end EStateM
