import Columnar.Action
import Columnar.Proofs.Outcome

namespace Columnar.Action

variable {σ τ α β : Type}

@[simp] theorem pure_apply (value : α) (state : σ) : (pure value : Action σ α) state = .ok value state := rfl

@[simp] theorem throw_apply (error : Error) (state : σ) :
    (throw error : Action σ α) state = .error error state := rfl

@[simp] theorem get_apply (state : σ) : (get : Action σ σ) state = .ok state state := rfl

@[simp] theorem set_apply (next state : σ) : (set next : Action σ PUnit) state = .ok ⟨⟩ next := rfl

@[simp] theorem modify_apply (change : σ → σ) (state : σ) :
    (modify change : Action σ PUnit) state = .ok ⟨⟩ (change state) := rfl

@[simp] theorem bind_apply (step : Action σ α) (next : α → Action σ β) (state : σ) :
    (step >>= next) state = match step state with
      | .ok value after => next value after
      | .error error after => .error error after := by
  change EStateM.bind step next state = _
  unfold EStateM.bind
  cases step state <;> rfl

@[simp] theorem ite_run (condition : Prop) [Decidable condition] (yes no : Action σ α) (state : σ) :
    (if condition then yes else no) state = if condition then yes state else no state := by
  split <;> rfl

@[simp] theorem lift_ok (value : α) : (lift (.ok value) : Action σ α) = pure value := rfl

@[simp] theorem lift_error (error : Error) : (lift (.error error) : Action σ α) = throw error := rfl

@[simp] theorem rewrap_ok (wrap : σ → τ) (value : α) (state : σ) :
    rewrap wrap (.ok value state) = .ok value (wrap state) := rfl

@[simp] theorem rewrap_error (wrap : σ → τ) (error : Error) (state : σ) :
    rewrap wrap (.error error state : EStateM.Result Error σ α) = .error error (wrap state) := rfl

/-- A step that succeeds after another has seen that one succeed too. -/
theorem bind_ok {step : Action σ α} {next : α → Action σ β} {state after : σ} {result : β}
    (run : (step >>= next) state = .ok result after) :
    ∃ value mid, step state = .ok value mid ∧ next value mid = .ok result after := by
  rw [bind_apply] at run
  cases first : step state with
  | ok value mid => exact ⟨value, mid, rfl, by simpa only [first] using run⟩
  | error error mid => simp only [first, reduceCtorEq] at run

/-- A step after another fails because that one does, or by itself. -/
theorem bind_error {step : Action σ α} {next : α → Action σ β} {state after : σ} {error : Error}
    (run : (step >>= next) state = .error error after) :
    step state = .error error after ∨ ∃ value mid, step state = .ok value mid ∧
    next value mid = .error error after := by
  rw [bind_apply] at run
  cases first : step state with
  | ok value mid => exact .inr ⟨value, mid, rfl, by simpa only [first] using run⟩
  | error found mid =>
    simp only [first, EStateM.Result.error.injEq] at run
    obtain ⟨rfl, rfl⟩ := run
    exact .inl rfl

theorem lift_eq_ok {found : Except Error α} {state after : σ} {value : α}
    (run : lift found state = .ok value after) : found = .ok value ∧ after = state := by
  cases found with
  | ok found => cases run; exact ⟨rfl, rfl⟩
  | error error => cases run

theorem rewrap_eq_ok {wrap : σ → τ} {result : EStateM.Result Error σ α} {value : α} {after : τ}
    (run : rewrap wrap result = .ok value after) : ∃ inner, result = .ok value inner ∧ wrap inner = after := by
  cases result with
  | ok value inner => cases run; exact ⟨inner, rfl, rfl⟩
  | error error inner => cases run

theorem rewrap_eq_error {wrap : σ → τ} {result : EStateM.Result Error σ α} {error : Error} {after : τ}
    (run : rewrap wrap result = .error error after) : ∃ inner, result = .error error inner ∧
    wrap inner = after := by
  cases result with
  | ok value inner => cases run
  | error error inner => cases run; exact ⟨inner, rfl, rfl⟩

/-- A step on the second of two states leaves the first alone. -/
theorem onSecond_ok {step : Action τ α} {first : σ} {second : τ} {value : α} {after : σ × τ}
    (run : onSecond step (first, second) = .ok value after) : step second = .ok value after.2 ∧
    after.1 = first := by
  obtain ⟨inner, found, rfl⟩ := rewrap_eq_ok run
  exact ⟨found, rfl⟩

theorem onSecond_error {step : Action τ α} {first : σ} {second : τ} {error : Error} {after : σ × τ}
    (run : onSecond step (first, second) = .error error after) : step second = .error error after.2 ∧
    after.1 = first := by
  obtain ⟨inner, found, rfl⟩ := rewrap_eq_error run
  exact ⟨found, rfl⟩

/-- The state that a step leaves, whether or not it succeeds. -/
def leftBy (step : Action σ α) (state : σ) : σ := (step.run state).2

theorem leftBy_ok {step : Action σ α} {state after : σ} {value : α} (run : step state = .ok value after) :
    leftBy step state = after := by
  simp only [leftBy, Action.run, run]

theorem leftBy_error {step : Action σ α} {state after : σ} {error : Error} (run : step state = .error error after) :
    leftBy step state = after := by
  simp only [leftBy, Action.run, run]

/-- From every state that keeps an invariant a step leaves one that does, whether or not it succeeds. -/
def Preserves (invariant : σ → Prop) (step : Action σ α) : Prop := ∀ state, invariant state →
    invariant (leftBy step state)

section Preserves

variable {invariant : σ → Prop} {step : Action σ α}

theorem leftBy_bind (step : Action σ α) (next : α → Action σ β) (state : σ) :
    leftBy (step >>= next) state = match step state with
      | .ok value mid => leftBy (next value) mid
      | .error _ mid => mid := by
  simp only [leftBy, Action.run, bind_apply]
  cases step state <;> rfl

theorem leftBy_lift (result : Except Error α) (state : σ) : leftBy (lift result) state = state := by
  cases result <;> rfl

theorem leftBy_congr {step other : Action σ α} {state beside : σ} (run : step state = other beside) :
    leftBy step state = leftBy other beside := by
  simp only [leftBy, Action.run, run]

theorem leftBy_rewrap {step : Action σ α} {other : Action τ α} {state : σ} {beside : τ} {wrap : τ → σ}
    (run : step state = rewrap wrap (other beside)) : leftBy step state = wrap (leftBy other beside) := by
  simp only [leftBy, Action.run, run]
  cases other beside <;> rfl

theorem Preserves.pure (value : α) : Preserves invariant (pure value : Action σ α) := fun _ kept => kept

theorem Preserves.lift (result : Except Error α) : Preserves invariant (lift result) := fun state kept =>
  (leftBy_lift result state).symm ▸ kept

theorem Preserves.modify {change : σ → σ} (kept : ∀ state, invariant state → invariant (change state)) :
    Preserves invariant (modify change : Action σ PUnit) := kept

/-- Where a step leaves a state that keeps the invariant, so do it and steps that preserve it after each other. -/
theorem Preserves.behind {next : α → Action σ β} (later : ∀ value, Preserves invariant (next value)) {state : σ}
    (first : invariant (leftBy step state)) : invariant (leftBy (step >>= next) state) := by
  rw [leftBy_bind]
  cases run : step state with
  | ok value after =>
    rw [leftBy_ok run] at first
    exact later value after first
  | error error after =>
    rw [leftBy_error run] at first
    exact first

theorem Preserves.bind {next : α → Action σ β} (first : Preserves invariant step)
    (later : ∀ value, Preserves invariant (next value)) : Preserves invariant (step >>= next) := fun state kept =>
  Preserves.behind later (first state kept)

theorem Preserves.onFirstTwo {invariant : σ × τ → Prop} {step : Action (σ × τ) α}
    (kept : Preserves invariant step) :
    Preserves (fun state : σ × τ × β => invariant (state.1, state.2.1)) (onFirstTwo step) := by
  rintro ⟨first, second, third⟩ holds
  have moves : Action.onFirstTwo step (first, second, third) =
      rewrap (fun moved => (moved.1, moved.2, third)) (step (first, second)) := rfl
  rw [leftBy_rewrap moves]
  exact kept (first, second) holds

end Preserves

/-- An outcome is the one expected: a success that fits what is expected, or a failure where nothing is. -/
def Meets (outcome : EStateM.Result Error σ α) (expected : Option β) (fits : β → α → σ → Prop) : Prop :=
  match outcome with
  | .ok value after => ∃ found, expected = some found ∧ fits found value after
  | .error .. => expected = none

section Meets

variable {γ δ : Type} {outcome : EStateM.Result Error σ α} {expected : Option γ} {fits : γ → α → σ → Prop}

theorem Meets.of_ok (meets : Meets outcome expected fits) {value : α} {after : σ}
    (run : outcome = .ok value after) : ∃ found, expected = some found ∧ fits found value after := by
  subst run
  exact meets

theorem Meets.exists_ok {found : γ} (meets : Meets outcome (some found) fits) :
    ∃ value after, outcome = .ok value after ∧ fits found value after := by
  cases outcome with
  | ok value after =>
    obtain ⟨_, same, fit⟩ := meets
    cases same
    exact ⟨value, after, rfl, fit⟩
  | error error after => cases meets

theorem Meets.imp {other : γ → α → σ → Prop} (meets : Meets outcome expected fits)
    (weaker : ∀ found value after, fits found value after → other found value after) :
    Meets outcome expected other := by
  cases outcome with
  | ok value after =>
    obtain ⟨found, same, fit⟩ := meets
    exact ⟨found, same, weaker found value after fit⟩
  | error error after => exact meets

theorem Meets.and (meets : Meets outcome expected fits) {also : α → σ → Prop}
    (ok : ∀ value after, outcome = .ok value after → also value after) :
    Meets outcome expected fun found value after => fits found value after ∧ also value after := by
  cases outcome with
  | ok value after =>
    obtain ⟨found, same, fit⟩ := meets
    exact ⟨found, same, fit, ok value after rfl⟩
  | error error after => exact meets

/-- What is found is what is expected. -/
theorem Meets.known (meets : Meets outcome expected fits) :
    Meets outcome expected fun found value after => expected = some found ∧ fits found value after := by
  cases outcome with
  | ok value after =>
    obtain ⟨found, same, fit⟩ := meets
    exact ⟨found, same, same, fit⟩
  | error error after => exact meets

theorem Meets.map (meets : Meets outcome expected fits) (grow : γ → δ) (other : δ → α → σ → Prop)
    (grown : ∀ found value after, fits found value after → other (grow found) value after) :
    Meets outcome (expected.map grow) other := by
  cases outcome with
  | ok value after =>
    obtain ⟨found, same, fit⟩ := meets
    exact ⟨grow found, by rw [same]; rfl, grown found value after fit⟩
  | error error after => exact congrArg (·.map grow) meets

/-- Steps one after the other come to what is expected of both. -/
theorem Meets.bind {step : Action σ α} {next : α → Action σ β} {state : σ} {rest : γ → Option δ}
    {last : δ → β → σ → Prop} (first : Meets (step state) expected fits)
    (later : ∀ found value mid, fits found value mid → Meets (next value mid) (rest found) last) :
    Meets ((step >>= next) state) (expected.bind rest) last := by
  rw [bind_apply]
  cases run : step state with
  | ok value mid =>
    obtain ⟨found, same, fit⟩ := first.of_ok run
    rw [same]
    exact later found value mid fit
  | error error mid =>
    rw [run] at first
    exact congrArg (·.bind rest) first

/-- A step that cannot fail comes after. -/
theorem Meets.andThen {step : Action σ α} {next : α → Action σ β} {state : σ} {other : γ → β → σ → Prop}
    (meets : Meets (step state) expected fits)
    (later : ∀ found value mid, fits found value mid →
      ∃ result after, next value mid = .ok result after ∧ other found result after) :
    Meets ((step >>= next) state) expected other := by
  have same : expected.bind some = expected := by cases expected <;> rfl
  rw [← same]
  refine meets.bind fun found value mid fit => ?_
  obtain ⟨result, after, run, last⟩ := later found value mid fit
  rw [run]
  exact ⟨found, rfl, last⟩

theorem Meets.rewrap (meets : Meets outcome expected fits) (wrap : σ → τ) (other : γ → α → τ → Prop)
    (wrapped : ∀ found value after, fits found value after → other found value (wrap after)) :
    Meets (rewrap wrap outcome) expected other := by
  cases outcome with
  | ok value after =>
    obtain ⟨found, same, fit⟩ := meets
    exact ⟨found, same, wrapped found value after fit⟩
  | error error after => exact meets

end Meets

/-- Failures that count as the same do so with a note on both, too. -/
structure Nearness (near : Error → Error → Prop) : Prop where
  equal : Equivalence near
  noted : ∀ (text : String) (error other : Error), near error other → near (error.note text) (other.note text)

/-- Two results are the same: one value, or failures that count as the same. -/
def Agree (near : Error → Error → Prop) : Except Error α → Except Error α → Prop
  | .ok value, .ok other => value = other
  | .error error, .error other => near error other
  | .ok _, .error _ | .error _, .ok _ => False

/-- From every state that keeps an invariant a step comes to one result, and it keeps the invariant. -/
def Settles (near : Error → Error → Prop) (invariant : σ → Prop) (step : Action σ α)
    (result : Except Error α) : Prop :=
  ∀ state, invariant state →
    ∃ outcome after, Agree near outcome result ∧ invariant after ∧ step state = lift outcome after

section Settles

variable {near : Error → Error → Prop} {invariant : σ → Prop} {step : Action σ α} {result other : Except Error α}

theorem Agree.refl (nearness : Nearness near) (result : Except Error α) : Agree near result result := by
  cases result with
  | ok value => rfl
  | error error => exact nearness.equal.refl error

theorem Agree.symm (nearness : Nearness near) (agree : Agree near result other) : Agree near other result := by
  cases result <;> cases other
  · exact nearness.equal.symm agree
  · exact agree
  · exact agree
  · exact Eq.symm agree

theorem Agree.trans (nearness : Nearness near) {third : Except Error α} (agree : Agree near result other)
    (onward : Agree near other third) : Agree near result third := by
  cases result <;> cases other <;> cases third <;> try contradiction
  · exact nearness.equal.trans agree onward
  · exact Eq.trans agree onward

theorem Agree.toOption_eq (agree : Agree near result other) : result.toOption = other.toOption := by
  cases result <;> cases other
  · rfl
  · cases agree
  · cases agree
  · exact congrArg some agree

theorem Agree.of_ok {value : α} (agree : Agree near result (.ok value)) : result = .ok value :=
  toOption_eq_some agree.toOption_eq

theorem Agree.map (agree : Agree near result other) (change : α → β) :
    Agree near (result.map change) (other.map change) := by
  cases result <;> cases other
  · exact agree
  · exact agree
  · exact agree
  · exact congrArg change agree

theorem Agree.noting (nearness : Nearness near) (agree : Agree near result other) (text : String) :
    Agree near (result.mapError (Error.note text)) (other.mapError (Error.note text)) := by
  cases result <;> cases other
  · exact nearness.noted text _ _ agree
  · exact agree
  · exact agree
  · exact agree

theorem Settles.lift (nearness : Nearness near) (result : Except Error α) :
    Settles near invariant (lift result) result := fun state holds =>
  ⟨result, state, Agree.refl nearness result, holds, rfl⟩

theorem Settles.pure (nearness : Nearness near) (value : α) : Settles near invariant (pure value) (.ok value) :=
  Settles.lift nearness (.ok value)

theorem Settles.throw (nearness : Nearness near) (error : Error) :
    Settles near invariant (throw error : Action σ α) (.error error) := Settles.lift nearness (.error error)

theorem Settles.bind {next : α → Action σ β} {rest : α → Except Error β}
    (first : Settles near invariant step result)
    (later : ∀ value, result = .ok value → Settles near invariant (next value) (rest value)) :
    Settles near invariant (step >>= next) (result >>= rest) := by
  intro state holds
  obtain ⟨outcome, mid, agree, kept, run⟩ := first state holds
  rw [bind_apply, run]
  cases result with
  | ok value =>
    obtain rfl := agree.of_ok
    exact later value rfl mid kept
  | error expected =>
    cases outcome with
    | ok found => cases agree
    | error error => exact ⟨.error error, mid, agree, kept, rfl⟩

theorem Settles.noting (nearness : Nearness near) (text : String) (settles : Settles near invariant step result) :
    Settles near invariant (noting text step) (result.mapError (Error.note text)) := by
  intro state holds
  obtain ⟨outcome, mid, agree, kept, run⟩ := settles state holds
  refine ⟨outcome.mapError (Error.note text), mid, agree.noting nearness text, kept, ?_⟩
  rw [Action.noting, run]
  cases outcome <;> rfl

/-- A step fails only where what it settles on is a failure. -/
theorem Settles.ne_ok (settles : Settles near invariant step result) {state after : σ} (holds : invariant state)
    {error : Error} (run : step state = .error error after) (value : α) : result ≠ .ok value := by
  rintro rfl
  obtain ⟨outcome, _, agree, _, run'⟩ := settles state holds
  obtain rfl := agree.of_ok
  cases run.symm.trans run'

end Settles

/-- From every state that keeps an invariant a step comes to one result, or it fails where that is a failure, and it
keeps the invariant. -/
def Yields (invariant : σ → Prop) (step : Action σ α) (result : Except Error α) : Prop :=
  ∀ state, invariant state →
    ∃ outcome after, outcome.toOption = result.toOption ∧ invariant after ∧ step state = lift outcome after

section Yields

variable {invariant : σ → Prop} {step : Action σ α} {result : Except Error α}

theorem nearness_eq : Nearness (· = ·) where
  equal := ⟨fun _ => rfl, Eq.symm, Eq.trans⟩
  noted := fun text _ _ => congrArg (Error.note text)

theorem nearness_any : Nearness fun _ _ => True where
  equal := ⟨fun _ => trivial, fun _ => trivial, fun _ _ => trivial⟩
  noted := fun _ _ _ => id

theorem yields_iff_settles : Yields invariant step result ↔ Settles (fun _ _ => True) invariant step result := by
  have same (outcome : Except Error α) : outcome.toOption = result.toOption ↔
      Agree (fun _ _ => True) outcome result := by
    cases outcome <;> cases result <;> simp [Except.toOption, Agree]
  simp only [Yields, Settles, same]

theorem Settles.yields {near : Error → Error → Prop} (settles : Settles near invariant step result) :
    Yields invariant step result := by
  intro state holds
  obtain ⟨outcome, after, agree, kept, run⟩ := settles state holds
  exact ⟨outcome, after, agree.toOption_eq, kept, run⟩

theorem Yields.lift (result : Except Error α) : Yields invariant (lift result) result :=
  (Settles.lift nearness_any result).yields

theorem Yields.pure (value : α) : Yields invariant (pure value) (.ok value) := Yields.lift (.ok value)

theorem Yields.bind {next : α → Action σ β} {rest : α → Except Error β} (first : Yields invariant step result)
    (later : ∀ value, result = .ok value → Yields invariant (next value) (rest value)) :
    Yields invariant (step >>= next) (result >>= rest) :=
  ((yields_iff_settles.mp first).bind fun value found => yields_iff_settles.mp (later value found)).yields

theorem Yields.run {value : α} (yields : Yields invariant step (.ok value)) {state : σ} (holds : invariant state) :
    ∃ after, invariant after ∧ step state = .ok value after := by
  obtain ⟨outcome, after, same, kept, run⟩ := yields state holds
  cases outcome with
  | ok found =>
    cases same
    exact ⟨after, kept, run⟩
  | error error => cases same

theorem Yields.meets (yields : Yields invariant step result) {state : σ} (holds : invariant state) :
    Meets (step state) result.toOption fun found value after => value = found ∧ invariant after := by
  obtain ⟨outcome, after, same, kept, run⟩ := yields state holds
  rw [run, ← same]
  cases outcome with
  | ok value => exact ⟨value, rfl, rfl, kept⟩
  | error error => exact rfl

/-- The same on the first of two states. -/
theorem Yields.meets_first (yields : Yields invariant step result) {first : σ} (holds : invariant first)
    (second : τ) : Meets (onFirst step (first, second)) result.toOption fun found value after =>
      value = found ∧ invariant after.1 ∧ after.2 = second :=
  (yields.meets holds).rewrap _ _ fun _ _ _ fit => ⟨fit.1, fit.2, rfl⟩

end Yields

end Columnar.Action
