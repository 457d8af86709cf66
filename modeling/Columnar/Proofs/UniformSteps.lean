import Mathlib.Tactic.Common
import Columnar.Proofs.Action
import Columnar.Sink.Room

namespace Columnar.Action

variable {σ τ υ α β : Type}

/-- Two runs come to the same: to one value or to failures that count as the same, and to states that are alike.
What is alike behind a success may depend on the value. -/
def Concur (near : Error → Error → Prop) (done : α → σ → σ → Prop) (failed : σ → σ → Prop) :
    EStateM.Result Error σ α → EStateM.Result Error σ α → Prop
  | .ok value after, .ok value' after' => value = value' ∧ done value after after'
  | .error error after, .error error' after' => near error error' ∧ failed after after'
  | .ok .., .error .. | .error .., .ok .. => False

/-- From states that are alike a step comes to the same, and to states that are alike again. -/
def Uniform (near : Error → Error → Prop) (alike : σ → σ → Prop) (step : Action σ α) : Prop :=
  ∀ state other, alike state other → Concur near (fun _ => alike) alike (step state) (step other)

/-- Both parts of two states are alike. -/
def Beside (alike : σ → σ → Prop) (also : τ → τ → Prop) (state other : σ × τ) : Prop :=
  alike state.1 other.1 ∧ also state.2 other.2

variable {near : Error → Error → Prop} {alike : σ → σ → Prop} {also : τ → τ → Prop}

theorem Concur.imp {done done' : α → σ → σ → Prop} {failed failed' : σ → σ → Prop}
    {one other : EStateM.Result Error σ α} (concur : Concur near done failed one other)
    (weaker : ∀ value after after', done value after after' → done' value after after')
    (weaker' : ∀ after after', failed after after' → failed' after after') :
    Concur near done' failed' one other := by
  cases one <;> cases other
  · exact ⟨concur.1, weaker _ _ _ concur.2⟩
  · exact concur
  · exact concur
  · exact ⟨concur.1, weaker' _ _ concur.2⟩

/-- Two runs that come to the same both succeed, or they both fail. -/
theorem Concur.both {done : α → σ → σ → Prop} {failed : σ → σ → Prop} {one other : EStateM.Result Error σ α}
    (concur : Concur near done failed one other) :
    (∃ value after after', one = .ok value after ∧ other = .ok value after' ∧ done value after after') ∨
      ∃ error error' after after', one = .error error after ∧ other = .error error' after' ∧ near error error' ∧
        failed after after' := by
  cases one <;> cases other
  · obtain ⟨rfl, done⟩ := concur
    exact .inl ⟨_, _, _, rfl, rfl, done⟩
  · exact concur.elim
  · exact concur.elim
  · exact .inr ⟨_, _, _, _, rfl, rfl, concur⟩

/-- Steps one after the other come to the same where the second ones do from wherever the first ones lead. -/
theorem Concur.bind {first : Action σ α} {next : α → Action σ β} {state other : σ} {done : α → σ → σ → Prop}
    {last : β → σ → σ → Prop} {failed : σ → σ → Prop} (concur : Concur near done failed (first state) (first other))
    (later : ∀ value mid mid', done value mid mid' → Concur near last failed (next value mid) (next value mid')) :
    Concur near last failed ((first >>= next) state) ((first >>= next) other) := by
  rw [bind_apply, bind_apply]
  cases run : first state <;> cases run' : first other <;> rw [run, run'] at concur
  · obtain ⟨rfl, mid⟩ := concur
    exact later _ _ _ mid
  · exact concur.elim
  · exact concur.elim
  · exact concur

theorem Concur.rewrap {done : α → σ → σ → Prop} {failed : σ → σ → Prop} {one other : EStateM.Result Error σ α}
    {wrap wrap' : σ → τ} {done' : α → τ → τ → Prop} {failed' : τ → τ → Prop}
    (concur : Concur near done failed one other)
    (wrapped : ∀ value after after', done value after after' → done' value (wrap after) (wrap' after'))
    (wrapped' : ∀ after after', failed after after' → failed' (wrap after) (wrap' after')) :
    Concur near done' failed' (rewrap wrap one) (rewrap wrap' other) := by
  cases one <;> cases other
  · exact ⟨concur.1, wrapped _ _ _ concur.2⟩
  · exact concur
  · exact concur
  · exact ⟨concur.1, wrapped' _ _ concur.2⟩

/-- Steps that come to the same still do where they stop for want of room, if they fill it alike. -/
theorem Concur.outcome {failed : σ → σ → Prop} {one other : EStateM.Result Error σ α}
    (concur : Concur near (fun _ => failed) failed one other) (nearness : Nearness near) (affordable : Bool)
    (full : α → Bool) {before before' : σ} (start : failed before before') :
    Concur near (fun _ => failed) failed (Room.outcome affordable (fun value _ => full value) before one)
      (Room.outcome affordable (fun value _ => full value) before' other) := by
  have stops : near .outOfStorage .outOfStorage := nearness.equal.refl _
  cases one <;> cases other
  · obtain ⟨rfl, after⟩ := concur
    simp only [Room.outcome]
    split
    · exact ⟨rfl, after⟩
    · exact ⟨stops, start⟩
  · exact concur.elim
  · exact concur.elim
  · simp only [Room.outcome]
    split
    · exact concur
    · exact ⟨stops, start⟩

theorem Uniform.pure (value : α) : Uniform near alike (pure value) := fun _ _ same => ⟨rfl, same⟩

theorem Uniform.throw (nearness : Nearness near) (error : Error) : Uniform near alike (throw error : Action σ α) :=
  fun _ _ same => ⟨nearness.equal.refl error, same⟩

theorem Uniform.lift (nearness : Nearness near) (result : Except Error α) : Uniform near alike (lift result) := by
  cases result with
  | ok value => exact Uniform.pure value
  | error error => exact Uniform.throw nearness error

/-- From one state a step comes to the same. -/
theorem Uniform.equal (nearness : Nearness near) (step : Action σ α) : Uniform near (· = ·) step := by
  rintro state _ rfl
  cases run : step state with
  | ok value after => exact ⟨rfl, rfl⟩
  | error error after => exact ⟨nearness.equal.refl error, rfl⟩

theorem Uniform.bind {step : Action σ α} {next : α → Action σ β} (first : Uniform near alike step)
    (later : ∀ value, Uniform near alike (next value)) :
    Uniform near alike (step >>= next) := fun state other same =>
  (first state other same).bind fun value mid mid' => later value mid mid'

theorem Uniform.discard {step : Action σ α} (uniform : Uniform near alike step) :
    Uniform near alike (discard step) := by
  intro state other same
  have concur := uniform state other same
  change Concur near _ _ (EStateM.map _ step state) (EStateM.map _ step other)
  unfold EStateM.map
  cases run : step state <;> cases run' : step other <;> rw [run, run'] at concur
  · exact ⟨rfl, concur.2⟩
  · exact concur
  · exact concur
  · exact concur

theorem Uniform.modify {change : σ → σ}
    (kept : ∀ state other, alike state other → alike (change state) (change other)) :
    Uniform near alike (modify change : Action σ PUnit) := fun state other same => ⟨rfl, kept state other same⟩

theorem Concur.noting {step : Action σ α} {state other : σ} {done : α → σ → σ → Prop} {failed : σ → σ → Prop}
    (concur : Concur near done failed (step state) (step other)) (nearness : Nearness near) (text : String) :
    Concur near done failed (noting text step state) (noting text step other) := by
  simp only [Action.noting]
  cases run : step state <;> cases run' : step other <;> rw [run, run'] at concur
  · exact concur
  · exact concur
  · exact concur
  · exact ⟨nearness.noted text _ _ concur.1, concur.2⟩

theorem Uniform.noting {step : Action σ α} (nearness : Nearness near) (text : String)
    (uniform : Uniform near alike step) :
    Uniform near alike (noting text step) := fun state other same => (uniform state other same).noting nearness text

theorem Uniform.onFirst {step : Action σ α} (uniform : Uniform near alike step) :
    Uniform near (Beside alike also) (onFirst step) := fun state other same =>
  (uniform state.1 other.1 same.1).rewrap (fun _ _ _ after => ⟨after, same.2⟩) fun _ _ after => ⟨after, same.2⟩

theorem Uniform.onSecond {step : Action τ α} (uniform : Uniform near also step) :
    Uniform near (Beside alike also) (onSecond step) := fun state other same =>
  (uniform state.2 other.2 same.2).rewrap (fun _ _ _ after => ⟨same.1, after⟩) fun _ _ after => ⟨same.1, after⟩

/-- What states that are alike have in common a step keeps, if it comes to the same from them. -/
theorem Uniform.preserves {step : Action σ α} {invariant : σ → Prop} (uniform : Uniform near alike step)
    (start : ∀ state, invariant state → alike state state)
    (stop : ∀ state other, alike state other → invariant state) : Preserves invariant step := by
  intro state holds
  obtain ⟨_, _, _, run, _, after⟩ | ⟨_, _, _, _, run, _, _, after⟩ := (uniform state state (start state holds)).both
  · rw [leftBy_ok run]
    exact stop _ _ after
  · rw [leftBy_error run]
    exact stop _ _ after

/-- Where a step settles on a result, it comes to the same from all states. -/
theorem Settles.uniform {invariant : σ → Prop} {step : Action σ α} {result : Except Error α}
    (nearness : Nearness near) (settles : Settles near invariant step result) :
    Uniform near (fun state other => invariant state ∧ invariant other) step := by
  rintro state other ⟨holds, holds'⟩
  obtain ⟨outcome, after, agree, kept, run⟩ := settles state holds
  obtain ⟨outcome', after', agree', kept', run'⟩ := settles other holds'
  have same := agree.trans nearness (agree'.symm nearness)
  rw [run, run']
  cases outcome <;> cases outcome'
  · exact ⟨same, kept, kept'⟩
  · exact same
  · exact same
  · exact ⟨same, kept, kept'⟩

end Columnar.Action
