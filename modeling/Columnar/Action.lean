import Columnar.Error

namespace Columnar

/-- A step on a state that may fail. What it did to the state before it failed stays done. -/
abbrev Action (σ : Type) := EStateM Error σ

namespace Action

variable {σ τ α : Type}

def rewrap (wrap : σ → τ) : EStateM.Result Error σ α → EStateM.Result Error τ α
  | .ok value state => .ok value (wrap state)
  | .error error state => .error error (wrap state)

def onFirst (step : Action σ α) : Action (σ × τ) α := fun (first, second) => rewrap (·, second) (step first)

def onSecond (step : Action τ α) : Action (σ × τ) α := fun (first, second) => rewrap (first, ·) (step second)

def onFirstTwo {υ : Type} (step : Action (σ × τ) α) : Action (σ × τ × υ) α := fun (first, second, third) =>
  rewrap (fun (first, second) => (first, second, third)) (step (first, second))

def onPart (get : σ → τ) (put : τ → σ → σ) (step : Action τ α) : Action σ α := fun state =>
  rewrap (put · state) (step (get state))

def noting (text : String) (step : Action σ α) : Action σ α := fun state =>
  match step state with
  | .ok value state => .ok value state
  | .error error state => .error (error.note text) state

def lift : Except Error α → Action σ α
  | .ok value => pure value
  | .error error => throw error

def run (step : Action σ α) (state : σ) : Except Error α × σ :=
  match step state with
  | .ok value state => (.ok value, state)
  | .error error state => (.error error, state)

end Action

end Columnar
